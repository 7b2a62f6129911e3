import StaticSite.Proofs.Site.Hierarchy
import StaticSite.Proofs.Json.Fields

/-!
The root of a site. Where there is a page at `index.html`, every page that is not at `index.html` hangs below the first
one that is: its chain of parents leads there, the tree of pages that begins there shows it, and templates see its
branch among the children. The home page is the last page at `index.html`, so it is the root if there is just one.
-/

namespace StaticSite.Links

open Json (Value Fields)
open Page (IsFirstIndexOf IsNearestIndex Unindexed parentIn? sortByUrl)

variable {links : Links} {pages : List Page} {i j root home : Nat}

/-! ## The home page -/

/-- The page at a position is the last of all pages at `index.html`. -/
theorem home?_eq_some :
    (ofPages pages).home? = some home ↔
      (∃ page, (sortByUrl pages)[home]? = some page ∧ page.IsIndexOf []) ∧
        ∀ j > home, ∀ later, (sortByUrl pages)[j]? = some later → ¬ later.IsIndexOf [] := by
  have listed : ∀ k, k ∈ ((sortByUrl pages).zipIdx.filter fun entry => entry.1.isHome).map (·.2) ↔
      ∃ page, (sortByUrl pages)[k]? = some page ∧ page.IsIndexOf [] := by
    intro k
    simp only [List.mem_map, List.mem_filter, List.mem_zipIdx_iff_getElem?, Page.isHome_iff, Prod.exists,
      exists_eq_right]
  have ascending : (((sortByUrl pages).zipIdx.filter fun entry => entry.1.isHome).map (·.2)).Pairwise (· < ·) := by
    refine List.Pairwise.sublist (List.filter_sublist.map _) ?_
    rw [List.zipIdx_map_snd]
    exact List.pairwise_lt_range' 1
  have last : (ofPages pages).home? =
      (((sortByUrl pages).zipIdx.filter fun entry => entry.1.isHome).map (·.2)).getLast? := by
    rw [List.getLast?_map]
    rfl
  rw [last, ← listed]
  generalize ((sortByUrl pages).zipIdx.filter fun entry => entry.1.isHome).map (·.2) = homes at *
  constructor
  · intro ends
    obtain ⟨front, rfl⟩ := List.getLast?_eq_some_iff.mp ends
    refine ⟨List.mem_concat_self, fun j beyond later at_j index => ?_⟩
    obtain member | same := List.mem_append.mp ((listed j).mpr ⟨later, at_j, index⟩)
    · have := (List.pairwise_append.mp ascending).2.2 j member home List.mem_cons_self
      omega
    · have := List.mem_singleton.mp same
      omega
  · rintro ⟨member, nothing_beyond⟩
    obtain ⟨front, final, rfl⟩ := (List.eq_nil_or_concat' homes).resolve_left (List.ne_nil_of_mem member)
    rw [List.getLast?_concat, Option.some.injEq]
    obtain earlier | same := List.mem_append.mp member
    · have beyond := (List.pairwise_append.mp ascending).2.2 home earlier final List.mem_cons_self
      obtain ⟨page, at_final, index⟩ := (listed final).mp List.mem_concat_self
      exact absurd index (nothing_beyond final beyond page at_final)
    · exact (List.mem_singleton.mp same).symm

/-! ## Branches -/

/-- What templates see of a page in the list of its parent's children. -/
def branchValue (page : Page) : Value :=
  .object (Fields.ofList [("title", .string page.title), ("url", .string page.url)])

/-- A page hangs below a root by a branch: some steps to the parent lead from it to a child of the root, which templates
see among the root's children, and the tree that begins at the root shows the page's own tree that many levels lower. -/
def HangsBelow (links : Links) (root i : Nat) : Prop :=
  ∃ steps branch linked, links.ascend steps i = some branch ∧ links.parentOf? branch = some root ∧
    links.pages[branch]? = some linked ∧
    (∃ summary listed, links.summaries[root]? = some summary ∧ summary.get? "children" = some (.array listed) ∧
      branchValue linked.page ∈ listed) ∧
    ∀ depth level, links.pages.length < depth → ∃ before after,
      links.treeFrom depth level root = before ++ links.treeFrom depth (level + (steps + 1)) i ++ after

/-- Every page that is not at `index.html` hangs below a root, which itself has no parent. -/
structure Gathers (links : Links) (root : Nat) : Prop where
  topmost : links.parentOf? root = none
  hangs : ∀ i linked, links.pages[i]? = some linked → ¬ linked.page.IsIndexOf [] → links.HangsBelow root i

/-- The children of a page are in what templates see of it. -/
theorem summaries_list_child {linked : LinkedPage} (kept : j ∈ links.childrenOf i) (found : links.pages[j]? = some linked) :
    ∃ summary listed, links.summaries[i]? = some summary ∧ summary.get? "children" = some (.array listed) ∧
      branchValue linked.page ∈ listed := by
  cases at_i : links.pages[i]? with
  | none =>
      rw [childrenOf, at_i] at kept
      cases kept
  | some parent =>
      rw [childrenOf_eq at_i] at kept
      have seen : (links.summary parent).get? "children" = some (.array (parent.children.filterMap fun child =>
          (links.pages[child]?).map fun listed => branchValue listed.page)) := by
        rw [summary, Fields.get?_insert, if_pos rfl]
        rfl
      refine ⟨links.summary parent, _, ?_, seen, List.mem_filterMap.mpr ⟨j, kept, by rw [found]; rfl⟩⟩
      rw [summaries, List.getElem?_map, at_i]
      rfl

/-- The tree of a page shows the trees of its children one level lower. -/
theorem treeFrom_shows_child (climbs : links.Climbs) (kept : j ∈ links.childrenOf i) {depth : Nat} (level : Nat)
    (enough : links.pages.length < depth) :
    ∃ before after, links.treeFrom depth level i = before ++ links.treeFrom depth (level + 1) j ++ after := by
  cases at_i : links.pages[i]? with
  | none =>
      rw [childrenOf, at_i] at kept
      cases kept
  | some linked =>
      rw [childrenOf_eq at_i] at kept
      obtain ⟨earlier, later, children⟩ := List.append_of_mem kept
      refine ⟨treeLine level linked.page ++ String.join (earlier.map (links.treeFrom depth (level + 1))),
        String.join (later.map (links.treeFrom depth (level + 1))), ?_⟩
      rw [treeFrom_eq climbs level enough at_i, children, List.map_append, List.map_cons, String.join_append,
        String.join_cons]
      simp only [String.append_assoc]

/-- The tree of a page shows the tree of every page below it, as many levels lower as there are steps between them. -/
theorem treeFrom_shows (climbs : links.Climbs) (children : ∀ i j, j ∈ links.childrenOf i ↔ links.parentOf? j = some i)
    {depth : Nat} (steps level : Nat)
    (enough : links.pages.length < depth) (leads : links.ascend steps i = some root) :
    ∃ before after, links.treeFrom depth level root = before ++ links.treeFrom depth (level + steps) i ++ after := by
  induction steps generalizing i with
  | zero =>
      rw [ascend, Option.some.injEq] at leads
      exact ⟨"", "", by simp [leads]⟩
  | succ steps ih =>
      rw [ascend, Option.bind_eq_some_iff] at leads
      obtain ⟨parent, above, leads⟩ := leads
      obtain ⟨before, after, shows⟩ := ih leads
      obtain ⟨first, last, below⟩ :=
        treeFrom_shows_child climbs ((children parent i).mpr above) (level + steps) enough
      refine ⟨before ++ first, last ++ after, ?_⟩
      rw [shows, below, Nat.add_assoc]
      simp only [String.append_assoc]

/-! ## The root -/

theorem isFirstIndexOf_of_home (known : (ofPages pages).home? = some home) :
    ∃ root ≤ home, IsFirstIndexOf (sortByUrl pages) root [] := by
  obtain ⟨⟨page, at_home, index⟩, -⟩ := home?_eq_some.mp known
  have relative : Path.empty.isAbsolute = false := rfl
  cases owner : Page.ownerOf? (sortByUrl pages) (Path.empty.join Page.indexFile) with
  | none => exact absurd index ((Page.ownerOf?_eq_none relative).mp owner page (List.mem_of_getElem? at_home))
  | some root =>
      have first := (Page.ownerOf?_eq_some relative).mp owner
      exact ⟨root, Nat.le_of_not_lt fun beyond => first.2 home beyond page at_home index, first⟩

/-- Every page that is not at `index.html` leads to the first one that is. The induction is on the rank of the page. -/
theorem exists_branch (fresh : ∀ page ∈ pages, page.Fresh) (first : IsFirstIndexOf (sortByUrl pages) root []) {page : Page}
    (found : (sortByUrl pages)[i]? = some page) (away : ¬ page.IsIndexOf []) :
    ∃ steps branch, (ofPages pages).ascend steps i = some branch ∧ (ofPages pages).parentOf? branch = some root := by
  induction rank : page.rank using Nat.strong_induction_on generalizing i page with
  | _ rank ih =>
      have known := fresh page ((Page.sortByUrl_perm pages).mem_iff.mp (List.mem_of_getElem? found))
      have below : page.Below [] := ⟨List.nil_prefix, away⟩
      cases parent : parentIn? (sortByUrl pages) page with
      | none => exact absurd ((Page.parentIn?_eq_none known).mp parent [] below) first.not_unindexed
      | some k =>
          have parent' : (ofPages pages).parentOf? i = some k := by
            rw [parentOf?_ofPages, found]
            exact parent
          obtain ⟨directory, -, first', -⟩ := (Page.parentIn?_eq_some known).mp parent
          by_cases top : directory = []
          · subst top
            exact ⟨0, i, rfl, first.unique first' ▸ parent'⟩
          · obtain ⟨above, at_k, less⟩ := Page.rank_lt_of_parentIn? known parent
            have away' : ¬ above.IsIndexOf [] := by
              obtain ⟨⟨other, at_k', index⟩, -⟩ := first'
              obtain rfl := Option.some.inj (at_k.symm.trans at_k')
              intro index'
              exact top (List.append_cancel_right (index.symm.trans index'))
            obtain ⟨steps, branch, leads, ends⟩ := ih _ (rank ▸ less) at_k away' rfl
            exact ⟨steps + 1, branch, by rw [ascend, parent']; exact leads, ends⟩

theorem ascend_add {steps : Nat} (leads : links.ascend steps i = some j) (more : Nat) :
    links.ascend (steps + more) i = links.ascend more j := by
  induction steps generalizing i with
  | zero =>
      rw [ascend, Option.some.injEq] at leads
      rw [Nat.zero_add, leads]
  | succ steps ih =>
      rw [ascend, Option.bind_eq_some_iff] at leads
      obtain ⟨parent, above, leads⟩ := leads
      rw [Nat.add_right_comm, ascend, above]
      exact ih leads

theorem gathers_of_first (fresh : ∀ page ∈ pages, page.Fresh) (first : IsFirstIndexOf (sortByUrl pages) root []) :
    (ofPages pages).Gathers root := by
  have climbs := climbs_ofPages fresh
  have children := fun i j => mem_childrenOf_iff (i := i) (j := j) fresh
  refine ⟨?_, fun i linked found away => ?_⟩
  · obtain ⟨⟨page, at_root, index⟩, -⟩ := first
    rw [parentOf?_ofPages, at_root, Option.bind_some, parentIn?, if_pos (Page.isHome_iff.mpr index)]
  · have at_i : (sortByUrl pages)[i]? = some linked.page := by
      rw [← pages_ofPages, List.getElem?_map, found]
      rfl
    obtain ⟨steps, branch, leads, ends⟩ := exists_branch fresh first at_i away
    have kept := (children root branch).mpr ends
    obtain ⟨-, linked', at_branch⟩ := climbs root branch kept
    have whole : (ofPages pages).ascend (steps + 1) i = some root := by
      rw [ascend_add leads, ascend, ends]
      rfl
    exact ⟨steps, branch, linked', leads, ends, at_branch, summaries_list_child kept at_branch,
      fun depth level enough => treeFrom_shows climbs children (steps + 1) level enough whole⟩

/-- Where there is a home page, the first page at `index.html` gathers all others, and it is the home page unless a
later one is. A home page that is not the first gathers nothing. -/
theorem first_index_gathers (fresh : ∀ page ∈ pages, page.Fresh) (known : (ofPages pages).home? = some home) :
    ∃ root ≤ home, IsFirstIndexOf (sortByUrl pages) root [] ∧ (ofPages pages).Gathers root ∧
      (root ≠ home → (ofPages pages).childrenOf home = []) := by
  obtain ⟨root, at_most, first⟩ := isFirstIndexOf_of_home known
  refine ⟨root, at_most, first, gathers_of_first fresh first, fun apart => ?_⟩
  rw [List.eq_nil_iff_forall_not_mem]
  intro child kept
  have parent := (mem_childrenOf_iff fresh).mp kept
  rw [parentOf?_ofPages, Option.bind_eq_some_iff] at parent
  obtain ⟨page, at_child, parent⟩ := parent
  have known' := fresh page ((Page.sortByUrl_perm pages).mem_iff.mp (List.mem_of_getElem? at_child))
  -- what is found as a parent is the first index of its directory, here of the topmost
  obtain ⟨directory, -, first', -⟩ := (Page.parentIn?_eq_some known').mp parent
  obtain ⟨⟨page', at_home, index⟩, -⟩ := home?_eq_some.mp known
  obtain ⟨⟨other, at_home', index'⟩, -⟩ := id first'
  obtain rfl := Option.some.inj (at_home.symm.trans at_home')
  obtain rfl : [] = directory := List.append_cancel_right (index.symm.trans index')
  exact apart (first.unique first')

/-- Two pages at `index.html` and one besides. -/
def twoHomes : List Page := [pageAt "index.html" "/", pageAt "index.html" "/", pageAt "a.html" "/a.html"]

theorem fresh_twoHomes : ∀ page ∈ twoHomes, page.Fresh := by
  simp only [twoHomes, List.forall_mem_cons, List.not_mem_nil, false_imp_iff, implies_true, and_true]
  refine ⟨?_, ?_, ?_⟩ <;> exact fresh_pageAt (by decide) (by decide) _

theorem sortByUrl_twoHomes : sortByUrl twoHomes = twoHomes := List.mergeSort_of_pairwise (by decide)

theorem home?_twoHomes : (ofPages twoHomes).home? = some 1 := by
  rw [ofPages, sortByUrl_twoHomes]
  decide +kernel

theorem parentOf?_twoHomes :
    (ofPages twoHomes).parentOf? 2 = some 0 ∧ (ofPages twoHomes).parentOf? 0 = none := by
  rw [parentOf?_ofPages, parentOf?_ofPages, sortByUrl_twoHomes]
  decide +kernel

theorem first_index_gathers_twoHomes :
    (∀ page ∈ twoHomes, page.Fresh) ∧ (ofPages twoHomes).home? = some 1 ∧
      ∃ root ≤ 1, IsFirstIndexOf (sortByUrl twoHomes) root [] ∧ (ofPages twoHomes).Gathers root ∧
        (root ≠ 1 → (ofPages twoHomes).childrenOf 1 = []) :=
  ⟨fresh_twoHomes, home?_twoHomes, first_index_gathers fresh_twoHomes home?_twoHomes⟩

/-- The home page is the second of the two, but the third page leads to the first, and the tree of the home page, which
is what the log shows, does not have the third page in it. -/
theorem home_misses_page :
    (∀ page ∈ twoHomes, page.Fresh) ∧ (ofPages twoHomes).home? = some 1 ∧
      (sortByUrl twoHomes)[2]? = some (pageAt "a.html" "/a.html") ∧
      (∀ steps, (ofPages twoHomes).ascend steps 2 ≠ some 1) ∧ (ofPages twoHomes).tree? = some "• index.html\n" := by
  refine ⟨fresh_twoHomes, home?_twoHomes, by rw [sortByUrl_twoHomes]; rfl, fun steps => ?_, ?_⟩
  · obtain ⟨parent, top⟩ := parentOf?_twoHomes
    match steps with
    | 0 => simp [ascend]
    | 1 => simp [ascend, parent]
    | steps + 2 => simp [ascend, parent, top]
  · rw [ofPages, sortByUrl_twoHomes]
    decide +kernel

end StaticSite.Links
