import StaticSite.Site.Links
import StaticSite.Proofs.Path.Relative

/-!
The forest of pages. The parent of a page is the first index of the nearest directory above it that has one. From
a page to its parent the output file gets shorter, or turns from a page of a directory into the directory's index,
so the pages form a forest, whatever their output files are and however often one occurs.
-/

namespace StaticSite

open Path (Component Proper)

namespace Page

variable {pages : List Page} {page : Page} {directory : List Component} {i k : Nat}

/-! ## Indices of directories -/

/-- Whether a page is written to the `index.html` of a directory. -/
def IsIndexOf (page : Page) (directory : List Component) : Prop :=
  page.outputFile.components = directory ++ [.name "index.html"]

/-- The directories at or above a page. What counts as above an index are the directories above its own. -/
structure Below (page : Page) (directory : List Component) : Prop where
  within : directory <+: page.outputFile.components.dropLast
  other : ¬ page.IsIndexOf directory

/-- What the output file of a page that has just been read looks like. -/
structure Fresh (page : Page) : Prop where
  relative : page.outputFile.isAbsolute = false
  html : ".html".toList <:+ page.outputFile.text.toList

/-- The page at a position is the first of all pages that is the index of a directory. -/
def IsFirstIndexOf (pages : List Page) (i : Nat) (directory : List Component) : Prop :=
  (∃ page, pages[i]? = some page ∧ page.IsIndexOf directory) ∧
    ∀ j < i, ∀ earlier, pages[j]? = some earlier → ¬ earlier.IsIndexOf directory

/-- No page is the index of a directory. -/
def Unindexed (pages : List Page) (directory : List Component) : Prop :=
  ∀ page ∈ pages, ¬ page.IsIndexOf directory

/-- The page at a position is the first index of a searched directory, and no deeper one has an index. -/
def IsNearestIndex (pages : List Page) (searched : List Component → Prop) (i : Nat) : Prop :=
  ∃ directory, searched directory ∧ IsFirstIndexOf pages i directory ∧
    ∀ deeper, searched deeper → directory.length < deeper.length → Unindexed pages deeper

theorem IsFirstIndexOf.not_unindexed (first : IsFirstIndexOf pages i directory) : ¬ Unindexed pages directory := by
  obtain ⟨⟨page, found, index⟩, -⟩ := first
  exact fun none => none page (List.mem_of_getElem? found) index

theorem IsFirstIndexOf.unique (first : IsFirstIndexOf pages i directory) (other : IsFirstIndexOf pages k directory) :
    i = k := by
  obtain ⟨⟨page, found, index⟩, earliest⟩ := first
  obtain ⟨⟨page', found', index'⟩, earliest'⟩ := other
  obtain less | same | less := Nat.lt_trichotomy i k
  · exact absurd index (earliest' i less page found)
  · exact same
  · exact absurd index' (earliest k less page' found')

/-- Of prefixes of one list each is determined by its length. -/
theorem IsNearestIndex.unique {whole : List Component} {searched : List Component → Prop}
    (prefixes : ∀ directory, searched directory → directory <+: whole)
    (nearest : IsNearestIndex pages searched i) (other : IsNearestIndex pages searched k) : i = k := by
  obtain ⟨directory, within, first, deepest⟩ := nearest
  obtain ⟨directory', within', first', deepest'⟩ := other
  obtain less | same | less := Nat.lt_trichotomy directory.length directory'.length
  · exact absurd (deepest directory' within' less) first'.not_unindexed
  · have equal : directory = directory' :=
      (List.prefix_of_prefix_length_le (prefixes _ within) (prefixes _ within') same.le).eq_of_length same
    exact first.unique (equal ▸ first')
  · exact absurd (deepest' directory within less) first.not_unindexed

theorem IsNearestIndex.congr {searched searched' : List Component → Prop}
    (same : ∀ directory, searched directory ↔ searched' directory) :
    IsNearestIndex pages searched i ↔ IsNearestIndex pages searched' i := by
  rw [show searched = searched' from funext fun directory => propext (same directory)]

/-! ## The search for an index -/

theorem same_join_index {d : Path} (relative : d.isAbsolute = false) :
    page.outputFile.same (d.join indexFile) ↔ page.IsIndexOf d.components := by
  have proper : Proper "index.html" := by
    constructor <;> decide
  rw [Path.same, beq_iff_eq, indexFile, Path.components_join_name relative proper, IsIndexOf]

theorem ownerOf?_eq_some {d : Path} (relative : d.isAbsolute = false) :
    ownerOf? pages (d.join indexFile) = some i ↔ IsFirstIndexOf pages i d.components := by
  rw [ownerOf?, List.findIdx?_eq_some_iff_getElem]
  constructor
  · rintro ⟨bound, found, earliest⟩
    refine ⟨⟨pages[i], List.getElem?_eq_getElem bound, (same_join_index relative).mp found⟩, ?_⟩
    intro j less earlier at_j index
    obtain ⟨bound', rfl⟩ := List.getElem?_eq_some_iff.mp at_j
    exact earliest j less ((same_join_index relative).mpr index)
  · rintro ⟨⟨page, found, index⟩, earliest⟩
    obtain ⟨bound, rfl⟩ := List.getElem?_eq_some_iff.mp found
    exact ⟨bound, (same_join_index relative).mpr index, fun j less same =>
      earliest j less _ (List.getElem?_eq_getElem _) ((same_join_index relative).mp same)⟩

theorem ownerOf?_eq_none {d : Path} (relative : d.isAbsolute = false) :
    ownerOf? pages (d.join indexFile) = none ↔ Unindexed pages d.components := by
  rw [ownerOf?, List.findIdx?_eq_none_iff]
  exact forall₂_congr fun page _ => by rw [← Bool.not_eq_true, same_join_index relative]

/-- A prefix of a list that is not the whole of it is a prefix of the list without its last element. -/
theorem prefix_iff_dropLast {whole part : List Component} (some_component : whole ≠ []) :
    part <+: whole ↔ part = whole ∨ part <+: whole.dropLast := by
  conv_lhs => rw [← List.dropLast_concat_getLast some_component]
  rw [List.prefix_concat_iff, List.dropLast_concat_getLast some_component]

/-- The search finds the nearest index among the directories at and above the one it starts in, and it fails only
where none of them has an index. The induction is on the components of the directory. -/
theorem indexAbove?_finds (pages : List Page) {depth : Nat} {start : Path} (relative : start.isAbsolute = false)
    (enough : start.components.length < depth) :
    (∃ i, indexAbove? pages depth (some start) = some i ∧ IsNearestIndex pages (· <+: start.components) i) ∨
      indexAbove? pages depth (some start) = none ∧ ∀ above, above <+: start.components → Unindexed pages above := by
  induction depth generalizing start with
  | zero => cases enough
  | succ depth ih =>
      rw [indexAbove?]
      cases owner : ownerOf? pages (start.join indexFile) with
      | some i =>
          refine .inl ⟨i, rfl, start.components, List.prefix_refl _, (ownerOf?_eq_some relative).mp owner, ?_⟩
          intro deeper within longer
          exact absurd within.length_le longer.not_ge
      | none =>
          have without := (ownerOf?_eq_none relative).mp owner
          by_cases top : start.components = []
          · rw [Path.parent?_of_components_nil relative top, top]
            refine .inr ⟨by cases depth <;> rfl, fun above within => ?_⟩
            rw [List.prefix_nil.mp within, ← top]
            exact without
          obtain ⟨above, parent, relative', dropped⟩ := Path.exists_parent?_of_relative relative top
          have shorter : above.components.length + 1 = start.components.length := by
            rw [dropped, List.length_dropLast]
            exact Nat.succ_pred_eq_of_pos (List.length_pos_of_ne_nil top)
          rw [parent]
          obtain ⟨i, found, directory, within, first, deepest⟩ | ⟨missed, nowhere⟩ := ih relative' (by omega)
          · refine .inl ⟨i, found, directory, ?_, first, ?_⟩
            · exact (prefix_iff_dropLast top).mpr (.inr (dropped ▸ within))
            · intro deeper within' longer
              obtain rfl | within' := (prefix_iff_dropLast top).mp within'
              · exact without
              · exact deepest deeper (dropped ▸ within') longer
          · refine .inr ⟨missed, fun other within => ?_⟩
            obtain rfl | within := (prefix_iff_dropLast top).mp within
            · exact without
            · exact nowhere other (dropped ▸ within)

/-! ## Where the search for the parent starts -/

/-- A fresh page lies in a directory, under a name. -/
theorem Fresh.exists_name (fresh : page.Fresh) :
    ∃ (directory : List Component) (name : String),
      page.outputFile.components = directory ++ [.name name] ∧ page.outputFile.fileName? = some name := by
  obtain ⟨front, text⟩ := fresh.html
  have ends : page.outputFile.text.toList.getLast? = some 'l' := by simp [← text]
  obtain ⟨directory, name, proper, file, named⟩ := Path.exists_last_name ends (by decide) (by decide)
  have relative : directory.isAbsolute = false := by
    have unrooted := fresh.relative
    rw [file] at unrooted
    exact Bool.eq_false_iff.mpr fun absolute => Bool.eq_false_iff.mp unrooted (Path.isAbsolute_join absolute _)
  exact ⟨directory.components, name, by rw [file, Path.components_join_name relative proper], named⟩

theorem isHome_iff : page.isHome ↔ page.IsIndexOf [] := by
  have single : indexFile.components = [.name "index.html"] := by decide
  rw [isHome, Path.same, beq_iff_eq, single, IsIndexOf, List.nil_append]

/-- The search starts in the lowest of the directories at or above a page. -/
theorem Fresh.exists_searchStart? (fresh : page.Fresh) (away : ¬ page.IsIndexOf []) :
    ∃ start, page.searchStart? = some start ∧ start.isAbsolute = false ∧
      start.components.length < page.outputFile.components.length ∧
      ∀ directory, page.Below directory ↔ directory <+: start.components := by
  obtain ⟨own, name, components, named⟩ := fresh.exists_name
  have own_eq : page.outputFile.components.dropLast = own := by rw [components, List.dropLast_concat]
  obtain ⟨above, parent, relative, dropped⟩ :=
    Path.exists_parent?_of_relative fresh.relative (by simp [components])
  rw [own_eq] at dropped
  rw [searchStart?, parent, named]
  by_cases index : name = "index.html"
  · subst index
    have some_component : above.components ≠ [] := by
      rintro empty
      exact away (by rw [IsIndexOf, components, ← dropped, empty])
    obtain ⟨start, parent', relative', dropped'⟩ := Path.exists_parent?_of_relative relative some_component
    rw [dropped] at dropped' some_component
    refine ⟨start, by simp [parent'], relative', ?_, fun directory => ?_⟩
    · rw [dropped', components, List.length_append, List.length_dropLast]
      exact Nat.lt_succ_of_le (Nat.sub_le _ 1)
    rw [dropped']
    constructor
    · rintro ⟨within, other⟩
      rw [own_eq] at within
      obtain rfl | within := (prefix_iff_dropLast some_component).mp within
      · exact absurd components other
      · exact within
    · refine fun within => ⟨own_eq ▸ within.trans (List.dropLast_prefix own), fun same => ?_⟩
      rw [IsIndexOf, components] at same
      have shorter := within.length_le
      rw [List.append_cancel_right same, List.length_dropLast] at shorter
      have := List.length_pos_of_ne_nil some_component
      rw [List.append_cancel_right same] at this
      omega
  · refine ⟨above, by simp [index], relative, by simp [dropped, components], fun directory => ?_⟩
    rw [dropped]
    refine ⟨fun below => own_eq ▸ below.within, fun within => ⟨own_eq ▸ within, fun same => index ?_⟩⟩
    rw [IsIndexOf, components] at same
    have last := congrArg List.getLast? same
    rw [List.getLast?_concat, List.getLast?_concat] at last
    simpa using last

/-- A text has hardly more components than characters. -/
theorem components_length_le (p : Path) : p.components.length ≤ p.text.length + 2 := by
  have pieces_le : ∀ text, (Path.pieces text).length ≤ text.length + 1 := by
    intro text
    fun_induction Path.pieces text with
    | case1 => simp
    | case2 rest ih => simpa using ih
    | case3 c rest different first more split ih =>
        rw [split] at ih
        simp only [List.length_cons] at ih ⊢
        omega
    | case4 c rest different split ih => simp
  have lead_le : (Path.leadOf p.text.toList).length ≤ 1 := by
    rw [Path.leadOf]
    split
    · simp
    · split <;> simp
  have steps_le : (Path.steps (Path.pieces p.text.toList)).length ≤ (Path.pieces p.text.toList).length := by
    rw [Path.steps, List.length_map]
    exact List.length_filter_le _ _
  have := pieces_le p.text.toList
  rw [Path.components_eq, List.length_append, ← String.length_toList]
  omega

/-- The parent of a page is the nearest index at or above it, and a page without one has no parent. -/
theorem parentIn?_finds (pages : List Page) (fresh : page.Fresh) :
    (∃ i, parentIn? pages page = some i ∧ IsNearestIndex pages page.Below i) ∨
      parentIn? pages page = none ∧ ∀ directory, page.Below directory → Unindexed pages directory := by
  rw [parentIn?]
  by_cases home : page.IsIndexOf []
  · rw [if_pos (isHome_iff.mpr home)]
    refine .inr ⟨rfl, fun directory below => absurd ?_ below.other⟩
    have top : directory <+: page.outputFile.components.dropLast := below.within
    rw [show page.outputFile.components = [.name "index.html"] from home] at top
    rwa [List.prefix_nil.mp top]
  · rw [if_neg (isHome_iff.not.mpr home)]
    obtain ⟨start, starts, relative, shorter, searched⟩ := fresh.exists_searchStart? home
    have enough : start.components.length < page.outputFile.text.length + 2 :=
      shorter.trans_le (components_length_le page.outputFile)
    rw [starts]
    obtain ⟨i, found, nearest⟩ | ⟨missed, nowhere⟩ := indexAbove?_finds pages relative enough
    · exact .inl ⟨i, found, (IsNearestIndex.congr searched).mpr nearest⟩
    · exact .inr ⟨missed, fun directory below => nowhere directory ((searched directory).mp below)⟩

theorem parentIn?_eq_some (fresh : page.Fresh) : parentIn? pages page = some i ↔ IsNearestIndex pages page.Below i := by
  obtain ⟨k, found, nearest⟩ | ⟨missed, nowhere⟩ := parentIn?_finds pages fresh
  · rw [found, Option.some.injEq]
    refine ⟨fun same => same ▸ nearest, fun other => ?_⟩
    exact nearest.unique (fun _ below => below.within) other
  · rw [missed]
    refine ⟨nofun, ?_⟩
    rintro ⟨directory, below, first, -⟩
    exact absurd (nowhere directory below) first.not_unindexed

theorem parentIn?_eq_none (fresh : page.Fresh) :
    parentIn? pages page = none ↔ ∀ directory, page.Below directory → Unindexed pages directory := by
  obtain ⟨k, found, directory, below, first, -⟩ | ⟨missed, nowhere⟩ := parentIn?_finds pages fresh
  · rw [found]
    exact ⟨nofun, fun nowhere => absurd (nowhere directory below) first.not_unindexed⟩
  · exact ⟨fun _ => nowhere, fun _ => missed⟩

/-! ## Ranks -/

/-- What gets less from a page to its parent: the length of the output file, and for one length an index counts less
than the other pages of its directory. -/
def rank (page : Page) : Nat :=
  2 * page.outputFile.components.length +
    if page.outputFile.components.getLast? = some (.name "index.html") then 0 else 1

theorem IsIndexOf.rank_lt {parent : Page} (index : parent.IsIndexOf directory) (fresh : page.Fresh)
    (below : page.Below directory) : parent.rank < page.rank := by
  obtain ⟨own, name, components, -⟩ := fresh.exists_name
  have within := below.within
  have other := below.other
  rw [components, List.dropLast_concat] at within
  rw [IsIndexOf, components] at other
  rw [rank, rank, index, components, List.getLast?_concat, List.getLast?_concat, if_pos rfl, List.length_append,
    List.length_append, List.length_singleton, List.length_singleton]
  split
  next same =>
    -- both are indices, so the directories are different ones
    obtain rfl : name = "index.html" := by simpa using same
    have shorter : directory.length < own.length := by
      refine lt_of_le_of_ne within.length_le fun equal => other ?_
      rw [within.eq_of_length equal]
    omega
  · have := within.length_le
    omega

/-- A page ranks above its parent. -/
theorem rank_lt_of_parentIn? (fresh : page.Fresh) (found : parentIn? pages page = some i) :
    ∃ parent, pages[i]? = some parent ∧ parent.rank < page.rank := by
  obtain ⟨directory, below, ⟨⟨parent, at_i, index⟩, -⟩, -⟩ := (parentIn?_eq_some fresh).mp found
  exact ⟨parent, at_i, index.rank_lt fresh below⟩

/-! ## The order of the pages -/

theorem sortByUrl_perm (pages : List Page) : (sortByUrl pages).Perm pages := List.mergeSort_perm _ _

theorem url_le_trans (a b c : Page) (first : decide (a.url ≤ b.url) = true) (second : decide (b.url ≤ c.url) = true) :
    decide (a.url ≤ c.url) = true :=
  decide_eq_true (String.le_trans (of_decide_eq_true first) (of_decide_eq_true second))

theorem url_le_total (a b : Page) : (decide (a.url ≤ b.url) || decide (b.url ≤ a.url)) = true := by
  simpa using String.le_total a.url b.url

theorem pairwise_sortByUrl (pages : List Page) : (sortByUrl pages).Pairwise (·.url ≤ ·.url) :=
  (List.pairwise_mergeSort url_le_trans url_le_total pages).imp of_decide_eq_true

/-- Pages with one address keep their order. -/
theorem filter_sortByUrl (pages : List Page) (url : String) :
    (sortByUrl pages).filter (·.url == url) = pages.filter (·.url == url) := by
  have alike : (pages.filter (·.url == url)).Pairwise fun a b => decide (a.url ≤ b.url) = true := by
    refine List.pairwise_of_forall_mem_list ?_
    intro a in_a b in_b
    rw [beq_iff_eq.mp (List.mem_filter.mp in_a).2, beq_iff_eq.mp (List.mem_filter.mp in_b).2]
    exact decide_eq_true (String.le_refl url)
  have kept := (List.sublist_mergeSort url_le_trans url_le_total alike (List.filter_sublist)).filter (·.url == url)
  rw [List.filter_filter] at kept
  simp only [Bool.and_self] at kept
  exact (kept.eq_of_length ((sortByUrl_perm pages).filter _).length_eq.symm).symm

end Page

namespace Links

open Page (Fresh Unindexed IsNearestIndex parentIn? sortByUrl)

variable {links : Links} {pages : List Page} {i j : Nat}

/-! ## Parents and children -/

def parentOf? (links : Links) (i : Nat) : Option Nat := (links.pages[i]?).bind (·.parent?)

def childrenOf (links : Links) (i : Nat) : List Nat := ((links.pages[i]?).map (·.children)).getD []

/-- Where so many steps to the parent lead. -/
def ascend (links : Links) : Nat → Nat → Option Nat
  | 0, i => some i
  | steps + 1, i => (links.parentOf? i).bind (links.ascend steps)

theorem getElem?_ofPages (pages : List Page) (i : Nat) :
    (ofPages pages).pages[i]? = ((sortByUrl pages)[i]?).map fun page =>
      { page, parent? := parentIn? (sortByUrl pages) page
        children := ((sortByUrl pages).map (parentIn? (sortByUrl pages))).zipIdx.filterMap fun (parent?, child) =>
          if parent? == some i then some child else none } := by
  cases at_i : (sortByUrl pages)[i]? with
  | none => simp [ofPages, List.zip_eq_zipWith, List.getElem?_zipWith, at_i]
  | some page => simp [ofPages, List.zip_eq_zipWith, List.getElem?_zipWith, at_i]

theorem pages_ofPages (pages : List Page) : (ofPages pages).pages.map (·.page) = sortByUrl pages := by
  refine List.ext_getElem? fun i => ?_
  rw [List.getElem?_map, getElem?_ofPages, Option.map_map]
  exact Option.map_id'

theorem parentOf?_ofPages (pages : List Page) (i : Nat) :
    (ofPages pages).parentOf? i = ((sortByUrl pages)[i]?).bind (parentIn? (sortByUrl pages)) := by
  rw [parentOf?, getElem?_ofPages, Option.bind_map]
  rfl

theorem parents_ofPages (pages : List Page) :
    (ofPages pages).pages.map (·.parent?) = (sortByUrl pages).map (parentIn? (sortByUrl pages)) := by
  refine List.ext_getElem? fun i => ?_
  rw [List.getElem?_map, getElem?_ofPages, Option.map_map, List.getElem?_map]
  rfl

theorem mem_childrenOf (bound : i < (sortByUrl pages).length) :
    j ∈ (ofPages pages).childrenOf i ↔ (ofPages pages).parentOf? j = some i := by
  rw [childrenOf, getElem?_ofPages, List.getElem?_eq_getElem bound, parentOf?_ofPages, Option.map_some, Option.map_some,
    Option.getD_some, List.mem_filterMap, Option.bind_eq_some_iff]
  constructor
  · rintro ⟨⟨parent?, child⟩, listed, kept⟩
    rw [List.mem_zipIdx_iff_getElem?, List.getElem?_map, Option.map_eq_some_iff] at listed
    obtain ⟨page, at_child, parent⟩ := listed
    obtain ⟨same, kept⟩ := Option.ite_none_right_eq_some.mp kept
    exact ⟨page, Option.some.inj kept ▸ at_child, parent.trans (beq_iff_eq.mp same)⟩
  · rintro ⟨page, at_j, parent⟩
    refine ⟨(some i, j), List.mem_zipIdx_iff_getElem?.mpr ?_, by simp⟩
    rw [List.getElem?_map, at_j, Option.map_some, parent]

theorem pairwise_childrenOf (pages : List Page) (i : Nat) : ((ofPages pages).childrenOf i).Pairwise (· < ·) := by
  rw [childrenOf, getElem?_ofPages]
  cases (sortByUrl pages)[i]? with
  | none => exact .nil
  | some page =>
      have positions := List.pairwise_lt_range' (s := 0) (n := ((sortByUrl pages).map (parentIn? (sortByUrl pages))).length) 1
      rw [← List.zipIdx_map_snd, List.pairwise_map] at positions
      rw [Option.map_some, Option.map_some, Option.getD_some]
      refine positions.filterMap _ ?_
      rintro ⟨_, child⟩ ⟨_, child'⟩ less b kept b' kept'
      obtain ⟨-, kept⟩ := Option.ite_none_right_eq_some.mp kept
      obtain ⟨-, kept'⟩ := Option.ite_none_right_eq_some.mp kept'
      rw [← Option.some.inj kept, ← Option.some.inj kept']
      exact less

theorem childrenOf_eq {linked : LinkedPage} (found : links.pages[i]? = some linked) :
    links.childrenOf i = linked.children := by
  rw [childrenOf, found]
  rfl

/-! ## Chains of parents -/

/-- The rank of the page at a position. -/
def rankAt (links : Links) (i : Nat) : Nat := ((links.pages[i]?).map (·.page.rank)).getD 0

theorem rankAt_ofPages (pages : List Page) (i : Nat) :
    (ofPages pages).rankAt i = (((sortByUrl pages)[i]?).map Page.rank).getD 0 := by
  rw [rankAt, getElem?_ofPages, Option.map_map]
  rfl

theorem rankAt_lt (fresh : ∀ page ∈ pages, page.Fresh) (parent : (ofPages pages).parentOf? j = some i) :
    i < (sortByUrl pages).length ∧ (ofPages pages).rankAt i < (ofPages pages).rankAt j := by
  rw [parentOf?_ofPages, Option.bind_eq_some_iff] at parent
  obtain ⟨page, at_j, found⟩ := parent
  have known := fresh page ((Page.sortByUrl_perm pages).mem_iff.mp (List.mem_of_getElem? at_j))
  obtain ⟨above, at_i, less⟩ := Page.rank_lt_of_parentIn? known found
  refine ⟨(List.getElem?_eq_some_iff.mp at_i).1, ?_⟩
  rw [rankAt_ofPages, rankAt_ofPages, at_i, at_j]
  exact less

theorem mem_childrenOf_iff (fresh : ∀ page ∈ pages, page.Fresh) :
    j ∈ (ofPages pages).childrenOf i ↔ (ofPages pages).parentOf? j = some i := by
  by_cases bound : i < (sortByUrl pages).length
  · exact mem_childrenOf bound
  · have nothing : (ofPages pages).childrenOf i = [] := by
      rw [childrenOf, getElem?_ofPages, List.getElem?_eq_none (by omega)]
      rfl
    rw [nothing]
    exact ⟨nofun, fun parent => absurd (rankAt_lt fresh parent).1 bound⟩

/-- Where parents rank lower, every chain of parents comes to its end. -/
theorem exists_ascend_eq_none (lower : ∀ i j, links.parentOf? j = some i → links.rankAt i < links.rankAt j) (i : Nat) :
    ∃ steps, links.ascend steps i = none := by
  induction rank : links.rankAt i using Nat.strong_induction_on generalizing i with
  | _ rank ih =>
      cases parent : links.parentOf? i with
      | none => exact ⟨1, by rw [ascend, parent]; rfl⟩
      | some above =>
          obtain ⟨steps, ends⟩ := ih _ (rank ▸ lower above i parent) above rfl
          exact ⟨steps + 1, by rw [ascend, parent]; exact ends⟩

/-! ## The page tree -/

/-- How many of the pages rank above the one at a position. -/
def above (links : Links) (i : Nat) : Nat := links.pages.countP fun linked => links.rankAt i < linked.page.rank

theorem above_lt {linked : LinkedPage} (found : links.pages[j]? = some linked) (less : links.rankAt i < links.rankAt j) :
    links.above j < links.above i := by
  have rank : links.rankAt j = linked.page.rank := by
    rw [rankAt, found]
    rfl
  have member := List.mem_of_getElem? found
  rw [above, above, List.countP_eq_length_filter, List.countP_eq_length_filter]
  have both : links.pages.filter (fun linked => links.rankAt j < linked.page.rank) =
      (links.pages.filter fun linked => links.rankAt i < linked.page.rank).filter fun linked =>
        links.rankAt j < linked.page.rank := by
    rw [List.filter_filter]
    refine List.filter_congr fun linked _ => ?_
    rw [Bool.eq_iff_iff]
    simp
    omega
  rw [both, List.length_filter_lt_length_iff_exists]
  exact ⟨linked, List.mem_filter.mpr ⟨member, decide_eq_true (rank ▸ less)⟩, by simp [rank]⟩

/-- What a tree needs to come out whole: every child ranks higher, and its page is there. -/
def Climbs (links : Links) : Prop :=
  ∀ i, ∀ child ∈ links.childrenOf i, links.rankAt i < links.rankAt child ∧ ∃ linked, links.pages[child]? = some linked

/-- One more level makes no difference to a tree with a level for every page that ranks higher. -/
theorem treeFrom_succ (climbs : links.Climbs) {depth : Nat} (level : Nat) (enough : links.above i < depth) :
    links.treeFrom (depth + 1) level i = links.treeFrom depth level i := by
  induction depth generalizing level i with
  | zero => cases enough
  | succ depth ih =>
      rw [treeFrom, treeFrom]
      cases at_i : links.pages[i]? with
      | none => rfl
      | some linked =>
          have subtrees : linked.children.map (links.treeFrom (depth + 1) (level + 1)) =
              linked.children.map (links.treeFrom depth (level + 1)) := by
            refine List.map_congr_left fun child member => ih (level + 1) ?_
            obtain ⟨less, _, found⟩ := climbs i child (childrenOf_eq at_i ▸ member)
            have := above_lt found less
            omega
          exact congrArg (treeLine level linked.page ++ String.join ·) subtrees

/-- A tree with more levels than there are pages is the line of its page and the trees of the children. -/
theorem treeFrom_eq (climbs : links.Climbs) {depth : Nat} (level : Nat) {linked : LinkedPage}
    (enough : links.pages.length < depth) (found : links.pages[i]? = some linked) :
    links.treeFrom depth level i =
      treeLine level linked.page ++ String.join (linked.children.map (links.treeFrom depth (level + 1))) := by
  have bounded : links.above i ≤ links.pages.length := List.countP_le_length
  rw [← treeFrom_succ climbs level (by omega), treeFrom, found]

theorem climbs_ofPages (fresh : ∀ page ∈ pages, page.Fresh) : (ofPages pages).Climbs := by
  intro i child member
  have parent := (mem_childrenOf_iff fresh).mp member
  refine ⟨(rankAt_lt fresh parent).2, ?_⟩
  rw [parentOf?, Option.bind_eq_some_iff] at parent
  obtain ⟨linked, found, -⟩ := parent
  exact ⟨linked, found⟩

/-! ## The forest -/

/-- What the links of pages are meant to be. -/
structure IsForest (links : Links) (read : List Page) : Prop where
  perm : (links.pages.map (·.page)).Perm read
  sorted : (links.pages.map (·.page)).Pairwise (·.url ≤ ·.url)
  stable : ∀ url, (links.pages.map (·.page)).filter (·.url == url) = read.filter (·.url == url)
  mem_children : ∀ i j, j ∈ links.childrenOf i ↔ links.parentOf? j = some i
  ascending : ∀ i, (links.childrenOf i).Pairwise (· < ·)
  ends : ∀ i, ∃ steps, links.ascend steps i = none
  /-- There is no endless way down either. -/
  wellFounded : WellFounded fun child parent => child ∈ links.childrenOf parent
  /-- The levels that a tree is written with are enough, whatever its root. -/
  tree : ∀ depth level i linked, links.pages.length < depth → links.pages[i]? = some linked →
    links.treeFrom depth level i =
      treeLine level linked.page ++ String.join (linked.children.map (links.treeFrom depth (level + 1)))
  home : ∀ linked ∈ links.pages, linked.page.IsIndexOf [] → linked.parent? = none
  nearest : ∀ linked ∈ links.pages, ∀ i,
    linked.parent? = some i ↔ IsNearestIndex (links.pages.map (·.page)) linked.page.Below i
  orphan : ∀ linked ∈ links.pages,
    linked.parent? = none ↔ ∀ directory, linked.page.Below directory → Unindexed (links.pages.map (·.page)) directory

theorem mem_ofPages {linked : LinkedPage} (member : linked ∈ (ofPages pages).pages) :
    linked.page ∈ pages ∧ linked.parent? = parentIn? (sortByUrl pages) linked.page := by
  obtain ⟨i, at_i⟩ := List.mem_iff_getElem?.mp member
  rw [getElem?_ofPages, Option.map_eq_some_iff] at at_i
  obtain ⟨page, found, rfl⟩ := at_i
  exact ⟨(Page.sortByUrl_perm pages).mem_iff.mp (List.mem_of_getElem? found), rfl⟩

/-- The way down ends, as ranks get no higher than those of the pages there are. -/
theorem wellFounded_childrenOf (climbs : links.Climbs) : WellFounded fun child parent => child ∈ links.childrenOf parent := by
  refine Subrelation.wf ?_ (measure links.above).wf
  intro child parent member
  obtain ⟨less, _, found⟩ := climbs parent child member
  exact above_lt found less

/-- Linking freshly read pages makes a forest of them. -/
theorem ofPages_isForest (fresh : ∀ page ∈ pages, page.Fresh) : (ofPages pages).IsForest pages where
  perm := pages_ofPages pages ▸ Page.sortByUrl_perm pages
  sorted := pages_ofPages pages ▸ Page.pairwise_sortByUrl pages
  stable url := pages_ofPages pages ▸ Page.filter_sortByUrl pages url
  mem_children i j := mem_childrenOf_iff fresh
  ascending i := pairwise_childrenOf pages i
  ends i := exists_ascend_eq_none (fun i j parent => (rankAt_lt fresh parent).2) i
  wellFounded := wellFounded_childrenOf (climbs_ofPages fresh)
  tree depth level i linked enough found := treeFrom_eq (climbs_ofPages fresh) level enough found
  home linked member index := by
    rw [(mem_ofPages member).2, parentIn?, if_pos (Page.isHome_iff.mpr index)]
  nearest linked member i := by
    rw [(mem_ofPages member).2, pages_ofPages, Page.parentIn?_eq_some (fresh _ (mem_ofPages member).1)]
  orphan linked member := by
    rw [(mem_ofPages member).2, pages_ofPages, Page.parentIn?_eq_none (fresh _ (mem_ofPages member).1)]

/-- A page of which only the output file and the address are of interest. -/
def pageAt (outputFile url : String) : Page where
  title := outputFile
  sourceFile := ⟨outputFile⟩
  sourceExtension := ".html"
  format := .markup
  outputFile := ⟨outputFile⟩
  url
  meta? := none
  contentOffset := 0

/-- Directories without an index, and one with two. -/
def unevenPages : List Page :=
  [pageAt "a/b/c.html" "/a/b/c.html", pageAt "index.html" "/", pageAt "a/index.html" "/a/",
    pageAt "a/index.html" "/a/", pageAt "x/y/index.html" "/x/y/"]

theorem fresh_pageAt {outputFile : String} (relative : (⟨outputFile⟩ : Path).isAbsolute = false)
    (html : ".html".toList <:+ outputFile.toList) (url : String) : (pageAt outputFile url).Fresh := ⟨relative, html⟩

theorem fresh_unevenPages : ∀ page ∈ unevenPages, page.Fresh := by
  simp only [unevenPages, List.forall_mem_cons, List.not_mem_nil, false_imp_iff, implies_true, and_true]
  refine ⟨?_, ?_, ?_, ?_, ?_⟩ <;> exact fresh_pageAt (by decide) (by decide) _

theorem sortByUrl_unevenPages :
    sortByUrl unevenPages =
      [pageAt "index.html" "/", pageAt "a/index.html" "/a/", pageAt "a/index.html" "/a/",
        pageAt "a/b/c.html" "/a/b/c.html", pageAt "x/y/index.html" "/x/y/"] := by
  simp [sortByUrl, unevenPages, List.mergeSort, pageAt]

theorem ofPages_isForest_uneven :
    (∀ page ∈ unevenPages, page.Fresh) ∧ (ofPages unevenPages).IsForest unevenPages ∧
      (ofPages unevenPages).pages.map (·.parent?) = [none, some 0, some 0, some 1, some 0] := by
  refine ⟨fresh_unevenPages, ofPages_isForest fresh_unevenPages, ?_⟩
  rw [parents_ofPages, sortByUrl_unevenPages]
  decide +kernel

end Links

end StaticSite
