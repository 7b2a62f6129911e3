import Mathlib.Data.List.Infix
import StaticSite.Template.Span

/-!
A template cut at its markers. `Cut` names the text and the inside of every marker; `Cut.Leftmost` says
where markers begin and end, without saying how they are found. Every source has exactly one leftmost
cut, and the pieces of the source are read off it.
-/

namespace StaticSite.Template

open Text

/-- A template as text and markers in turn. The inside of a marker is all that stands between its `<?`
and its `?>`, with the hyphens at its ends. -/
inductive Cut
  | plain (text : List Char)
  | marked (text inside : List Char) (rest : Cut)

/-- Whether a marker removes the blanks before it. -/
def trimsBefore (inside : List Char) : Bool := inside.head? == some '-'

/-- Whether a marker removes the blanks behind it: a hyphen ends its inside, and is not the one that
its inside begins with. -/
def trimsBehind (inside : List Char) : Bool := inside.getLast? == some '-' && 1 < inside.length

/-- The inside of a marker without its hyphens. -/
def codeOf (inside : List Char) : List Char :=
  let body := if trimsBefore inside then inside.drop 1 else inside
  if trimsBehind inside then body.dropLast else body

/-- The text behind a marker without the blanks that the marker removes. -/
def dropBlanks (trim : Bool) (text : List Char) : List Char := if trim then trimLeft text else text

/-- The blanks that a marker removes from the text behind it. -/
def blanksOf (trim : Bool) (text : List Char) : List Char :=
  if trim then text.takeWhile isBlank else []

namespace Cut

/-- The source that was cut. -/
def source : Cut → List Char
  | .plain text => text
  | .marked text inside rest => text ++ '<' :: '?' :: (inside ++ '?' :: '>' :: rest.source)

/-- Every marker begins at the first `<?` that is closed behind it, and ends at the first `?>` behind
that. Text before a marker cannot hold half of its `<?`, nor the inside half of its `?>`. -/
def Leftmost : Cut → Prop
  | .plain text => ∀ before behind, text = before ++ '<' :: '?' :: behind → ¬ ['?', '>'] <:+: behind
  | .marked text inside rest => ¬ ['<', '?'] <:+: text ∧ ¬ ['?', '>'] <:+: inside ∧ rest.Leftmost

/-- The pieces of a cut that begins at byte `position`, behind a marker that removes blanks or not.
Text loses what the markers around it remove and is left out where nothing remains; code stands behind
its `<?` and the hyphen that may follow. -/
def pieces (position : Nat) (trim : Bool) : Cut → List Piece
  | .plain text =>
      textPiece (position + byteLength (blanksOf trim text)) (dropBlanks trim text)
  | .marked text inside rest =>
      let shown := dropBlanks trim text
      let opening := position + byteLength text
      textPiece (position + byteLength (blanksOf trim text))
          (if trimsBefore inside then trimRight shown else shown) ++
        .code (opening + 2 + if trimsBefore inside then 1 else 0) (codeOf inside) ::
          rest.pieces (opening + 2 + byteLength inside + 2) (trimsBehind inside)

end Cut

theorem closeAt?_eq_none {text : List Char} : closeAt? text = none ↔ ¬ ['?', '>'] <:+: text := by
  fun_induction closeAt? text with
  | case1 rest => simp [List.infix_cons_iff]
  | case2 c rest different ih =>
      simp only [Option.map_eq_none_iff, ih, List.infix_cons_iff, not_or]
      refine ⟨fun absent => ⟨?_, absent⟩, fun absent => absent.2⟩
      intro given
      rcases given with ⟨tail, begins⟩
      simp only [List.cons_append, List.nil_append, List.cons.injEq] at begins
      obtain ⟨rfl, rfl⟩ := begins
      exact different tail rfl rfl
  | case3 => simp

theorem closeAt?_append {inside : List Char} (open_ : ¬ ['?', '>'] <:+: inside) (rest : List Char) :
    closeAt? (inside ++ '?' :: '>' :: rest) = some inside.length := by
  induction inside with
  | nil => rfl
  | cons c inside ih =>
      simp only [List.infix_cons_iff, not_or] at open_
      rw [List.cons_append, closeAt?, ih open_.2]
      · rfl
      · rintro tail rfl same
        cases inside with
        | nil => simp at same
        | cons d inside =>
            simp only [List.cons_append, List.cons.injEq] at same
            exact open_.1 ⟨inside, by simp [same.1]⟩

theorem exists_closeAt?_split {text : List Char} {width : Nat} (closed : closeAt? text = some width) :
    text = text.take width ++ '?' :: '>' :: text.drop (width + 2) ∧
      ¬ ['?', '>'] <:+: text.take width := by
  fun_induction closeAt? text generalizing width with
  | case1 rest =>
      cases closed
      simp
  | case2 c rest different ih =>
      obtain ⟨inner, found, rfl⟩ := Option.map_eq_some_iff.mp closed
      obtain ⟨split, absent⟩ := ih found
      refine ⟨by simpa using split, ?_⟩
      rw [List.take_succ_cons, List.infix_cons_iff, not_or]
      refine ⟨?_, absent⟩
      intro given
      rcases given with ⟨tail, begins⟩
      simp only [List.cons_append, List.nil_append, List.cons.injEq] at begins
      obtain ⟨rfl, begins⟩ := begins
      exact different _ rfl (split.trans (by rw [← begins, List.cons_append]))
  | case3 => cases closed

/-- Two texts without the mark `p q` that are continued by it in the same way are the same text. -/
theorem eq_of_append_mark {p q : Char} (different : p ≠ q) {left right after rest : List Char}
    (leftFree : ¬ [p, q] <:+: left) (rightFree : ¬ [p, q] <:+: right)
    (same : left ++ p :: q :: after = right ++ p :: q :: rest) : left = right ∧ after = rest := by
  induction left generalizing right with
  | nil =>
      match right with
      | [] => simpa using same
      | [c] =>
          simp only [List.nil_append, List.cons_append, List.cons.injEq] at same
          exact absurd same.2.1.symm different
      | c :: d :: right =>
          simp only [List.nil_append, List.cons_append, List.cons.injEq] at same
          exact absurd ⟨[], right, by simp [same.1, same.2.1]⟩ rightFree
  | cons c left ih =>
      match right with
      | [] =>
          match left with
          | [] =>
              simp only [List.nil_append, List.cons_append, List.cons.injEq] at same
              exact absurd same.2.1 different
          | d :: left =>
              simp only [List.nil_append, List.cons_append, List.cons.injEq] at same
              exact absurd ⟨[], left, by simp [same.1, same.2.1]⟩ leftFree
      | d :: right =>
          simp only [List.cons_append, List.cons.injEq] at same
          simp only [List.infix_cons_iff, not_or] at leftFree rightFree
          obtain ⟨rfl, rfl⟩ := ih leftFree.2 rightFree.2 same.2
          exact ⟨by rw [same.1], rfl⟩

theorem Cut.eq_of_source_eq {left right : Cut} (leftmost : left.Leftmost) (leftmost' : right.Leftmost)
    (same : left.source = right.source) : left = right := by
  induction left generalizing right with
  | plain text =>
      cases right with
      | plain other => exact congrArg Cut.plain same
      | marked text' inside rest =>
          exact absurd ⟨inside, rest.source, by simp⟩ (leftmost text' _ same)
  | marked text inside rest ih =>
      cases right with
      | plain other => exact absurd ⟨inside, rest.source, by simp⟩ (leftmost' text _ same.symm)
      | marked text' inside' rest' =>
          obtain ⟨free, open_, restLeftmost⟩ := leftmost
          obtain ⟨free', open', restLeftmost'⟩ := leftmost'
          obtain ⟨rfl, behindOpening⟩ := eq_of_append_mark (by decide) free free' same
          obtain ⟨rfl, behindClosing⟩ := eq_of_append_mark (by decide) open_ open' behindOpening
          rw [ih restLeftmost restLeftmost' behindClosing]

/-- A cut of a source that one more character precedes, if no marker begins with that character. -/
theorem Cut.exists_cons {c : Char} {cut : Cut} (leftmost : cut.Leftmost)
    (unopened : ∀ behind, c :: cut.source ≠ '<' :: '?' :: behind) :
    ∃ longer : Cut, longer.source = c :: cut.source ∧ longer.Leftmost := by
  cases cut with
  | plain text =>
      refine ⟨.plain (c :: text), rfl, ?_⟩
      intro before behind split
      cases before with
      | nil => exact absurd split (unopened behind)
      | cons d before =>
          simp only [List.cons_append, List.cons.injEq] at split
          exact leftmost before behind split.2
  | marked text inside rest =>
      obtain ⟨free, open_, restLeftmost⟩ := leftmost
      refine ⟨.marked (c :: text) inside rest, rfl, ?_, open_, restLeftmost⟩
      rw [List.infix_cons_iff, not_or]
      refine ⟨?_, free⟩
      intro given
      rcases given with ⟨tail, begins⟩
      simp only [List.cons_append, List.nil_append, List.cons.injEq] at begins
      obtain ⟨rfl, rfl⟩ := begins
      exact unopened _ rfl

/-- A source that begins with `<?` is cut there if a `?>` is behind it, and nowhere if there is none. -/
theorem Cut.exists_opening {body : List Char}
    (shorter : ∀ width, ∃ rest : Cut, rest.source = body.drop width ∧ rest.Leftmost) :
    ∃ cut : Cut, cut.source = '<' :: '?' :: body ∧ cut.Leftmost := by
  cases closed : closeAt? body with
  | none =>
      refine ⟨.plain ('<' :: '?' :: body), rfl, ?_⟩
      intro before behind split closes
      refine closeAt?_eq_none.mp closed (closes.trans ?_)
      match before with
      | [] =>
          simp only [List.nil_append, List.cons.injEq, true_and] at split
          exact ⟨[], [], by simp [split]⟩
      | [c] => simp at split
      | c :: d :: before =>
          simp only [List.cons_append, List.cons.injEq] at split
          exact ⟨before ++ ['<', '?'], [], by simp [split.2.2]⟩
  | some width =>
      obtain ⟨split, free⟩ := exists_closeAt?_split closed
      obtain ⟨rest, same, leftmost⟩ := shorter (width + 2)
      refine ⟨.marked [] (body.take width) rest, ?_, by simp, free, leftmost⟩
      rw [Cut.source, same, List.nil_append, ← split]

theorem exists_leftmost_cut (source : List Char) : ∃ cut : Cut, cut.source = source ∧ cut.Leftmost := by
  by_cases opens : ∃ body, source = '<' :: '?' :: body
  · obtain ⟨body, rfl⟩ := opens
    exact Cut.exists_opening fun width => exists_leftmost_cut (body.drop width)
  · match source with
    | [] => exact ⟨.plain [], rfl, by simp [Cut.Leftmost]⟩
    | c :: rest =>
        obtain ⟨cut, rfl, leftmost⟩ := exists_leftmost_cut rest
        exact Cut.exists_cons leftmost (fun behind same => opens ⟨behind, same⟩)
termination_by source.length
decreasing_by
  · rename_i same
    subst same
    simp only [List.length_drop, List.length_cons]
    omega
  · simp

theorem dropHyphen_eq (inside : List Char) :
    dropHyphen (if trimsBefore inside then inside.drop 1 else inside) =
      (codeOf inside, trimsBehind inside) := by
  cases inside with
  | nil => rfl
  | cons c body =>
      by_cases hyphen : c = '-'
      · subst hyphen
        cases body with
        | nil => rfl
        | cons d body =>
            by_cases ends : (d :: body).getLast? = some '-' <;>
              simp [dropHyphen, codeOf, trimsBefore, trimsBehind, ends]
      · have before : trimsBefore (c :: body) = false := by simpa [trimsBefore] using hyphen
        cases body with
        | nil => simp [dropHyphen, codeOf, before, trimsBehind, hyphen]
        | cons d body =>
            by_cases ends : (d :: body).getLast? = some '-' <;>
              simp [dropHyphen, codeOf, before, trimsBehind, ends]

/-- A marker is read as its inside says, and takes the blanks behind it that it removes. -/
theorem marker?_append {inside : List Char} (open_ : ¬ ['?', '>'] <:+: inside) (rest : List Char) :
    marker? (inside ++ '?' :: '>' :: rest) = some
      { trimBefore := trimsBefore inside
        code := codeOf inside
        width := inside.length + 2 + (blanksOf (trimsBehind inside) rest).length } := by
  have opening : ((inside ++ '?' :: '>' :: rest).head? == some '-') = trimsBefore inside := by
    cases inside <;> rfl
  have hyphens := dropHyphen_eq inside
  unfold marker?
  rw [opening]
  cases before : trimsBefore inside with
  | false =>
      simp only [before, Bool.false_eq_true, if_false] at hyphens ⊢
      simp only [closeAt?_append open_, Option.map_some, List.take_left, hyphens]
      cases trimsBehind inside <;> simp [blanksOf]
  | true =>
      cases inside with
      | nil => cases before
      | cons c body =>
          have bodyOpen : ¬ ['?', '>'] <:+: body := by
            rw [List.infix_cons_iff, not_or] at open_
            exact open_.2
          simp only [before, if_true, List.drop_succ_cons, List.drop_zero] at hyphens
          simp only [if_true, List.cons_append, List.drop_succ_cons, List.drop_zero,
            closeAt?_append bodyOpen, Option.map_some, List.take_left, hyphens]
          cases trimsBehind (c :: body) <;> simp [blanksOf, Nat.add_comm]

theorem marker?_eq_none {rest : List Char} (unclosed : ¬ ['?', '>'] <:+: rest) : marker? rest = none := by
  unfold marker?
  simp only [Option.map_eq_none_iff, closeAt?_eq_none]
  split
  · exact fun closed => unclosed (closed.trans (List.drop_suffix 1 rest).isInfix)
  · exact unclosed

theorem piecesFrom_cons (start position : Nat) (before : List Char) {c : Char} {rest : List Char}
    (unread : ∀ body, c :: rest = '<' :: '?' :: body → marker? body = none) :
    piecesFrom start position before (c :: rest) =
      piecesFrom start (position + c.utf8Size) (c :: before) rest := by
  have unopened :
      (if c = '<' && rest.head? == some '?' then marker? (rest.drop 1) else none) = none := by
    split
    · rename_i opens
      simp only [Bool.and_eq_true, decide_eq_true_eq, beq_iff_eq] at opens
      obtain ⟨rfl, opens⟩ := opens
      obtain ⟨body, rfl⟩ := List.head?_eq_some_iff.mp opens
      exact unread body rfl
    · rfl
  rw [piecesFrom, unopened]

theorem piecesFrom_append (start position : Nat) (before : List Char) {text rest : List Char}
    (free : ¬ ['<', '?'] <:+: text) (apart : rest.head? ≠ some '?') :
    piecesFrom start position before (text ++ rest) =
      piecesFrom start (position + byteLength text) (text.reverse ++ before) rest := by
  induction text generalizing position before with
  | nil => simp
  | cons c text ih =>
      rw [List.infix_cons_iff, not_or] at free
      rw [List.cons_append, piecesFrom_cons, ih _ _ free.2]
      · simp [Nat.add_assoc]
      · intro body opens
        cases text with
        | nil =>
            simp only [List.nil_append, List.cons.injEq] at opens
            exact absurd (by rw [opens.2]; rfl) apart
        | cons d text =>
            simp only [List.cons_append, List.cons.injEq] at opens
            exact absurd ⟨text, by simp [opens.1, opens.2.1]⟩ free.1

theorem piecesFrom_plain (start position : Nat) (before : List Char) {text : List Char}
    (leftmost : (Cut.plain text).Leftmost) :
    piecesFrom start position before text = textPiece start (before.reverse ++ text) := by
  induction text generalizing position before with
  | nil => simp [piecesFrom]
  | cons c text ih =>
      have tail : (Cut.plain text).Leftmost := fun front behind split =>
        leftmost (c :: front) behind (by rw [split, List.cons_append])
      rw [piecesFrom_cons, ih _ _ tail]
      · simp
      · exact fun body opens => marker?_eq_none (leftmost [] body opens)

theorem blanksOf_append_dropBlanks (trim : Bool) (text : List Char) :
    blanksOf trim text ++ dropBlanks trim text = text := by
  cases trim with
  | false => rfl
  | true => exact List.takeWhile_append_dropWhile

theorem byteLength_blanks_add (trim : Bool) (text : List Char) :
    byteLength (blanksOf trim text) + byteLength (dropBlanks trim text) = byteLength text := by
  rw [← byteLength_append, blanksOf_append_dropBlanks]

theorem blanksOf_append (trim : Bool) (text rest : List Char) :
    blanksOf trim (text ++ '<' :: rest) = blanksOf trim text := by
  cases trim with
  | false => rfl
  | true =>
      induction text with
      | nil => simp [blanksOf, show isBlank '<' = false by decide]
      | cons c text ih =>
          simp only [blanksOf, if_true] at ih
          simp [blanksOf, List.takeWhile_cons, ih]

theorem dropBlanks_append (trim : Bool) (text rest : List Char) :
    dropBlanks trim (text ++ '<' :: rest) = dropBlanks trim text ++ '<' :: rest := by
  cases trim with
  | false => rfl
  | true =>
      induction text with
      | nil => simp [dropBlanks, trimLeft, show isBlank '<' = false by decide]
      | cons c text ih =>
          simp only [dropBlanks, trimLeft, if_true] at ih
          simp only [dropBlanks, trimLeft, if_true, List.cons_append, List.dropWhile_cons, ih]
          split <;> rfl

theorem dropBlanks_suffix (trim : Bool) (text : List Char) : dropBlanks trim text <:+ text := by
  cases trim with
  | false => exact List.suffix_rfl
  | true => exact List.dropWhile_suffix _

/-- A closed marker ends the text gathered before it, and reading goes on behind it. -/
theorem piecesFrom_marker (start position : Nat) (text : List Char) {inside : List Char}
    (open_ : ¬ ['?', '>'] <:+: inside) (rest : List Char) :
    let next := position + 2 + byteLength inside + 2 + byteLength (blanksOf (trimsBehind inside) rest)
    piecesFrom start position text.reverse ('<' :: '?' :: (inside ++ '?' :: '>' :: rest)) =
      textPiece start (if trimsBefore inside then trimRight text else text) ++
        .code (position + 2 + if trimsBefore inside then 1 else 0) (codeOf inside) ::
          piecesFrom next next [] (dropBlanks (trimsBehind inside) rest) := by
  have parts := blanksOf_append_dropBlanks (trimsBehind inside) rest
  have marker := marker?_append open_ rest
  generalize dropBlanks (trimsBehind inside) rest = left at parts ⊢
  generalize blanksOf (trimsBehind inside) rest = blanks at parts marker ⊢
  intro next
  have taken : (inside ++ '?' :: '>' :: rest).take (inside.length + 2 + blanks.length) =
      inside ++ '?' :: '>' :: blanks := by
    rw [← parts, Nat.add_assoc, List.take_length_add_append, Nat.add_comm 2]
    simp
  have dropped : (inside ++ '?' :: '>' :: rest).drop (inside.length + 2 + blanks.length) = left := by
    rw [← parts, Nat.add_assoc, List.drop_length_add_append, Nat.add_comm 2]
    simp
  rw [piecesFrom]
  simp only [List.head?_cons, beq_self_eq_true, Bool.and_self, decide_true, if_true,
    List.drop_succ_cons, List.drop_zero, marker, List.reverse_reverse, taken, dropped]
  have width : position + 2 + byteLength (inside ++ '?' :: '>' :: blanks) = next := by
    have question : '?'.utf8Size = 1 := rfl
    have greater : '>'.utf8Size = 1 := rfl
    simp only [byteLength_append, byteLength_cons, question, greater, next]
    omega
  rw [width]

/-- The pieces of a source are those of its leftmost cut. -/
theorem piecesFrom_cut {cut : Cut} (leftmost : cut.Leftmost) (position : Nat) (trim : Bool) :
    let start := position + byteLength (blanksOf trim cut.source)
    piecesFrom start start [] (dropBlanks trim cut.source) = cut.pieces position trim := by
  induction cut generalizing position trim with
  | plain text =>
      refine piecesFrom_plain _ _ [] fun before behind split => ?_
      obtain ⟨front, whole⟩ := dropBlanks_suffix trim text
      exact leftmost (front ++ before) behind (by rw [List.append_assoc, ← split]; exact whole.symm)
  | marked text inside rest ih =>
      obtain ⟨free, open_, restLeftmost⟩ := leftmost
      have width := byteLength_blanks_add trim text
      have shownFree : ¬ ['<', '?'] <:+: dropBlanks trim text := fun inText =>
        free (inText.trans (dropBlanks_suffix trim text).isInfix)
      simp only [Cut.source, blanksOf_append, dropBlanks_append, Cut.pieces]
      rw [piecesFrom_append _ _ _ shownFree (by simp), List.append_nil,
        piecesFrom_marker _ _ _ open_, Nat.add_assoc position, width, ← ih restLeftmost]

theorem pieces_source {cut : Cut} (leftmost : cut.Leftmost) : pieces cut.source = cut.pieces 0 false := by
  simpa [blanksOf, dropBlanks, pieces] using piecesFrom_cut leftmost 0 false

/-- Whether a piece is the part of a source that stands at its position. -/
def Piece.SlicedFrom (source : List Char) : Piece → Prop
  | .text position content | .code position content =>
      ∃ before behind, source = before ++ content ++ behind ∧ byteLength before = position

theorem trimRight_append (text : List Char) : ∃ blanks, text = trimRight text ++ blanks := by
  refine ⟨(text.reverse.takeWhile isBlank).reverse, ?_⟩
  rw [trimRight, ← List.reverse_append, List.takeWhile_append_dropWhile, List.reverse_reverse]

theorem codeOf_append (inside : List Char) :
    ∃ behind, inside = (if trimsBefore inside then ['-'] else []) ++ codeOf inside ++ behind := by
  have opening : inside = (if trimsBefore inside then ['-'] else []) ++
      (if trimsBefore inside then inside.drop 1 else inside) := by
    cases inside with
    | nil => rfl
    | cons c body => by_cases hyphen : c = '-' <;> simp [trimsBefore, hyphen]
  generalize body : (if trimsBefore inside then inside.drop 1 else inside) = remaining at opening
  have code : codeOf inside = if trimsBehind inside then remaining.dropLast else remaining := by
    rw [← body]
    rfl
  rw [code]
  cases trimsBehind inside with
  | false => exact ⟨[], by simpa using opening⟩
  | true =>
      refine ⟨remaining.drop (remaining.length - 1), ?_⟩
      simpa only [if_true, List.append_assoc, List.dropLast_eq_take, List.take_append_drop] using opening

theorem textPiece_sliced (front : List Char) {text : List Char} (behind : List Char) {position : Nat}
    (place : byteLength front = position) :
    ∀ piece ∈ textPiece position text, piece.SlicedFrom (front ++ text ++ behind) := by
  intro piece member
  unfold textPiece at member
  split at member
  · cases member
  · cases List.mem_singleton.mp member
    exact ⟨front, behind, rfl, place⟩

theorem Cut.pieces_sliced (cut : Cut) (front : List Char) {position : Nat} (trim : Bool)
    (place : byteLength front = position) :
    ∀ piece ∈ cut.pieces position trim, piece.SlicedFrom (front ++ cut.source) := by
  induction cut generalizing front position trim with
  | plain text =>
      have text_ := blanksOf_append_dropBlanks trim text
      intro piece member
      have sliced := textPiece_sliced (front ++ blanksOf trim text) []
        (by rw [byteLength_append, place]) piece member
      simpa [source, text_] using sliced
  | marked text inside rest ih =>
      have text_ := blanksOf_append_dropBlanks trim text
      have question : '?'.utf8Size = 1 := rfl
      have greater : '>'.utf8Size = 1 := rfl
      have less : '<'.utf8Size = 1 := rfl
      intro piece member
      simp only [pieces, List.mem_append, List.mem_cons] at member
      rcases member with inText | rfl | inRest
      · obtain ⟨blanks, shown⟩ : ∃ blanks, dropBlanks trim text =
            (if trimsBefore inside then trimRight (dropBlanks trim text) else dropBlanks trim text) ++
              blanks := by
          split
          · exact trimRight_append _
          · exact ⟨[], by simp⟩
        have sliced := textPiece_sliced (front ++ blanksOf trim text)
          (blanks ++ '<' :: '?' :: (inside ++ '?' :: '>' :: rest.source))
          (by rw [byteLength_append, place]) piece inText
        rw [source, ← text_, shown]
        simpa using sliced
      · obtain ⟨behind, split⟩ := codeOf_append inside
        refine ⟨front ++ text ++ '<' :: '?' :: (if trimsBefore inside then ['-'] else []),
          behind ++ '?' :: '>' :: rest.source, ?_, ?_⟩
        · rw [source]
          nth_rewrite 1 [split]
          simp
        · have hyphen : byteLength (if trimsBefore inside then ['-'] else []) =
              if trimsBefore inside then 1 else 0 := by split <;> rfl
          simp only [byteLength_append, byteLength_cons, place, question, less, hyphen]
          omega
      · have next := ih (front ++ text ++ '<' :: '?' :: (inside ++ ['?', '>']))
          (trimsBehind inside) (by
            simp only [byteLength_append, byteLength_cons, byteLength_nil, place, question, less, greater]
            omega) piece inRest
        simpa [source] using next

/-- Whether a token can come out of code, and does not stand for text around it. -/
def Token.isCode : Token → Bool
  | .text _ | .echo | .spanEnd | .finish => false
  | _ => true

theorem hexNumber_isCode {rest : List Char} {lexeme : Lexeme} (read : hexNumber rest = .ok lexeme) :
    ∀ token ∈ lexeme.token, token.isCode = true := by
  unfold hexNumber at read
  dsimp only at read
  split at read
  · split at read <;> cases read
    intro token head
    cases head
    rfl
  · cases read

theorem decimalNumber_isCode {cs : List Char} {lexeme : Lexeme} (read : decimalNumber cs = .ok lexeme) :
    ∀ token ∈ lexeme.token, token.isCode = true := by
  obtain ⟨value, more, rfl⟩ : ∃ value more, lexeme = ⟨some (.number value), more⟩ := by
    grind [decimalNumber]
  intro token head
  cases head
  rfl

theorem wordToken_isCode (word : String) : (wordToken word).isCode = true := by
  unfold wordToken
  split <;> rfl

theorem lexeme_isCode {c : Char} {rest : List Char} {found : Lexeme} (read : lexeme c rest = .ok found) :
    ∀ token ∈ found.token, token.isCode = true := by
  unfold lexeme at read
  split at read
  · cases read
    simp
  split at read
  · cases read
    simp
  split at read
  · split at read <;> cases read
    simp
  split at read
  · cases body : stringBody c 1 rest with
    | error error => simp [body, bind, Except.bind] at read
    | ok result =>
        simp only [body, bind, Except.bind, Except.ok.injEq] at read
        subst read
        intro token head
        cases head
        rfl
  split at read
  · exact hexNumber_isCode read
  split at read
  · exact decimalNumber_isCode read
  split at read
  · cases read
    intro token head
    cases head
    exact wordToken_isCode _
  · split at read <;> cases read
    intro token head
    cases head
    rfl

theorem lexFrom_isCode {position : Nat} {code : List Char} {tokens : List Placed}
    (read : lexFrom position code = .ok tokens) : ∀ placed ∈ tokens, placed.token.isCode = true := by
  fun_induction lexFrom position code generalizing tokens with
  | case1 => cases read; simp
  | case2 => cases read
  | case3 => cases read
  | case4 position c rest lexeme found next others behind token isToken =>
      rename_i ih
      cases read
      intro placed member
      cases member with
      | head => exact lexeme_isCode found token isToken
      | tail _ member => exact ih behind placed member
  | case5 position c rest lexeme found next others behind isBlank =>
      rename_i ih
      cases read
      exact ih behind

/-- The place and content of a token that stands for text. -/
def Placed.text? (placed : Placed) : Option (Nat × String) :=
  match placed.token with
  | .text content => some (placed.position, content)
  | _ => none

/-- The place and content of a piece of text. -/
def Piece.text? : Piece → Option (Nat × String)
  | .text position content => some (position, String.ofList content)
  | .code .. => none

theorem filterMap_text?_of_isCode {tokens : List Placed}
    (code : ∀ placed ∈ tokens, placed.token.isCode = true) : tokens.filterMap Placed.text? = [] := by
  rw [List.filterMap_eq_nil_iff]
  intro placed member
  have isCode := code placed member
  unfold Placed.text?
  split
  · rename_i isText
    rw [isText] at isCode
    cases isCode
  · rfl

/-- Code that begins with `=` is an echo of what follows; other code is read as it is. The token that
ends it stands behind its last byte. -/
theorem Piece.tokens_code (position : Nat) (content : List Char) :
    (Piece.code position content).tokens =
      let finish : Placed := ⟨.spanEnd, position + byteLength content⟩
      if content.head? = some '=' then
        (lexFrom (position + 1) content.tail).map fun tokens => ⟨.echo, position⟩ :: tokens ++ [finish]
      else (lexFrom position content).map fun tokens => tokens ++ [finish] := by
  cases content with
  | nil => rfl
  | cons c content =>
      by_cases equals : c = '='
      · subst equals
        rfl
      · simp only [List.head?_cons, Option.some.injEq, if_neg equals]
        dsimp only [tokens]
        split
        · rename_i begins
          cases begins
          exact absurd rfl equals
        · cases lexFrom position (c :: content) <;> rfl

/-- The tokens of a code piece are those that the lexer finds in it, behind the `=` of an echo, and the one
that ends the span. -/
theorem Piece.exists_lexed {position : Nat} {content : List Char} {tokens : List Placed}
    (read : (Piece.code position content).tokens = .ok tokens) :
    ∃ opening lead code lexed, content = lead ++ code ∧
      (opening = [] ∧ lead = [] ∨ opening = [⟨.echo, position⟩] ∧ lead = ['=']) ∧
        lexFrom (position + byteLength lead) code = .ok lexed ∧
          tokens = opening ++ (lexed ++ [⟨.spanEnd, position + byteLength content⟩]) := by
  rw [tokens_code] at read
  dsimp only at read
  split at read
  · rename_i equals
    obtain ⟨code, rfl⟩ := List.head?_eq_some_iff.mp equals
    cases lexed : lexFrom (position + 1) code with
    | error error => simp [lexed, Except.map] at read
    | ok found =>
        simp only [List.tail_cons, lexed, Except.map, Except.ok.injEq] at read
        exact ⟨_, ['='], code, found, rfl, .inr ⟨rfl, rfl⟩, lexed, read.symm⟩
  · cases lexed : lexFrom position content with
    | error error => simp [lexed, Except.map] at read
    | ok found =>
        simp only [lexed, Except.map, Except.ok.injEq] at read
        exact ⟨[], [], content, found, rfl, .inl ⟨rfl, rfl⟩, lexed, read.symm⟩

theorem Piece.tokens_text? {piece : Piece} {tokens : List Placed} (read : piece.tokens = .ok tokens) :
    tokens.filterMap Placed.text? = piece.text?.toList := by
  cases piece with
  | text position content =>
      cases read
      rfl
  | code position content =>
      obtain ⟨opening, lead, code, lexed, -, opens, found, rfl⟩ := exists_lexed read
      rw [List.filterMap_append, List.filterMap_append, filterMap_text?_of_isCode (lexFrom_isCode found)]
      obtain ⟨rfl, -⟩ | ⟨rfl, -⟩ := opens <;> rfl

theorem piecesTokens_text? {parts : List Piece} {tokens : List Placed}
    (read : piecesTokens parts = .ok tokens) :
    tokens.filterMap Placed.text? = parts.filterMap Piece.text? := by
  induction parts generalizing tokens with
  | nil =>
      cases read
      rfl
  | cons piece parts ih =>
      cases first : piece.tokens with
      | error error => simp [piecesTokens, first, bind, Except.bind] at read
      | ok front =>
          cases others : piecesTokens parts with
          | error error => simp [piecesTokens, first, others, bind, Except.bind] at read
          | ok behind =>
              simp only [piecesTokens, first, others, bind, Except.bind, Except.ok.injEq] at read
              subst read
              rw [List.filterMap_append, Piece.tokens_text? first, ih others]
              cases shown : piece.text? <;> simp [shown]

/-- The tokens of a source are those of the pieces of its leftmost cut, with the token for its end. -/
theorem scan_source {cut : Cut} (leftmost : cut.Leftmost) :
    scan cut.source =
      (piecesTokens (cut.pieces 0 false)).map (· ++ [⟨.finish, byteLength cut.source⟩]) := by
  rw [← pieces_source leftmost]
  unfold scan
  cases piecesTokens (pieces cut.source) <;> rfl

/-- Splitting a source into text and code loses and repeats nothing. The source has exactly one leftmost
cut; each piece of it is the part of the source at its position; code is lexed where it stands, behind
its hyphen, and is an echo if it begins with `=`; and the text tokens are the text pieces in order. -/
theorem scan_reads_leftmost_cut (source : List Char) :
    ∃ cut : Cut, (cut.source = source ∧ cut.Leftmost) ∧
      (∀ other : Cut, other.source = source → other.Leftmost → other = cut) ∧
      (∀ piece ∈ cut.pieces 0 false, piece.SlicedFrom source) ∧
      scan source = (piecesTokens (cut.pieces 0 false)).map (· ++ [⟨.finish, byteLength source⟩]) ∧
      (∀ position content, (Piece.code position content).tokens =
        let finish : Placed := ⟨.spanEnd, position + byteLength content⟩
        if content.head? = some '=' then
          (lexFrom (position + 1) content.tail).map fun tokens => ⟨.echo, position⟩ :: tokens ++ [finish]
        else (lexFrom position content).map fun tokens => tokens ++ [finish]) ∧
      ∀ tokens, scan source = .ok tokens →
        tokens.filterMap Placed.text? = (cut.pieces 0 false).filterMap Piece.text? := by
  obtain ⟨cut, rfl, leftmost⟩ := exists_leftmost_cut source
  refine ⟨cut, ⟨rfl, leftmost⟩, fun other same leftmost' => Cut.eq_of_source_eq leftmost' leftmost same,
    ?_, scan_source leftmost, Piece.tokens_code, ?_⟩
  · simpa using cut.pieces_sliced [] false rfl
  · intro tokens scanned
    rw [scan_source leftmost] at scanned
    cases read : piecesTokens (cut.pieces 0 false) with
    | error error => simp [read, Except.map] at scanned
    | ok found =>
        simp only [read, Except.map, Except.ok.injEq] at scanned
        subst scanned
        rw [List.filterMap_append, piecesTokens_text? read]
        simp [Placed.text?]

end StaticSite.Template
