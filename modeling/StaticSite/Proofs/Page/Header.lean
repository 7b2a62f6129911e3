import Mathlib.Tactic.Common
import StaticSite.Page.Header

/-!
The header of a page is found in pieces, but is that of the whole page. `Whole` says what the header of
some content is and how many bytes are asked for until it is known, without any pieces.
-/

namespace StaticSite

namespace Reader

theorem takePieces_eq (count : Nat) (pieces : List Bytes) :
    (takePieces count pieces).1 = pieces.flatten.take count ∧
      (takePieces count pieces).2.1 = decide (pieces.flatten.length < count) ∧
      (takePieces count pieces).2.2.flatten = pieces.flatten.drop count := by
  induction pieces generalizing count with
  | nil =>
      rw [takePieces]
      cases count <;> simp
  | cons piece rest ih =>
      have behind := ih (count - piece.length)
      unfold takePieces
      generalize takePieces (count - piece.length) rest = outcome at behind ⊢
      obtain ⟨others, now, remaining⟩ := outcome
      obtain ⟨taken, ended, left⟩ := behind
      dsimp only at taken ended left ⊢
      split
      · rename_i inside
        refine ⟨?_, ?_, ?_⟩
        · rw [List.flatten_cons, List.take_append_of_le_length (Nat.le_of_lt inside)]
        · simp only [List.flatten_cons, List.length_append]
          rw [eq_comm, decide_eq_false_iff_not]
          omega
        · rw [List.flatten_cons, List.flatten_cons, List.drop_append_of_le_length (Nat.le_of_lt inside)]
      · rename_i beyond
        obtain ⟨more, rfl⟩ := Nat.exists_eq_add_of_le (Nat.le_of_not_lt beyond)
        rw [Nat.add_sub_cancel_left] at taken ended left
        refine ⟨?_, ?_, ?_⟩
        · rw [taken, List.flatten_cons, List.take_length_add_append]
        · rw [ended, List.flatten_cons, List.length_append, decide_eq_decide]
          omega
        · rw [left, List.flatten_cons, List.drop_length_add_append]

/-- Taking bytes does not depend on the pieces that a reader hands them out in. -/
theorem exists_take (reader : Reader) (count : Nat) :
    ∃ rest : Reader, rest.bytes = reader.bytes.drop count ∧ rest.broken = reader.broken ∧
      reader.take count =
        (if reader.bytes.length < count ∧ reader.broken = true then .error failure
          else .ok (reader.bytes.take count, decide (reader.bytes.length < count)), rest) := by
  have split := takePieces_eq count reader.pieces
  unfold take bytes
  generalize takePieces count reader.pieces = outcome at split ⊢
  obtain ⟨first, ended, pieces⟩ := outcome
  obtain ⟨rfl, rfl, left⟩ := split
  refine ⟨{ reader with pieces }, left, rfl, ?_⟩
  simp only [Bool.and_eq_true, decide_eq_true_eq]

end Reader

namespace Header

/-- A closing line in some bytes, from the line feed before it to behind its own. -/
structure Closes (bytes : Bytes) (start finish : Nat) : Prop where
  long : start + 5 ≤ finish
  opens : bytes[start]? = some lineFeed
  dashes : ∀ i, start < i → i + 1 < finish → bytes[i]? = some dash
  ends : bytes[finish - 1]? = some lineFeed

/-- The first closing line of a page. It may share the line feed of the opening line. -/
structure FirstCloses (content : Bytes) (start finish : Nat) : Prop where
  behind : 3 ≤ start
  closes : Closes content start finish
  first : ∀ earlier other, 3 ≤ earlier → earlier < start → ¬ Closes content earlier other

/-- Whether a page begins with an opening line. -/
def Opened (content : Bytes) : Prop := leastSize ≤ content.length ∧ opening <+: content

/-- The number of bytes that are asked for with some pieces behind the head. -/
def requested (pieces : Nat) : Nat := headSize + pieceSize * pieces

/-- The header of a page that is read as a whole, and the number of bytes that have to be asked for
until it is known. That number is greater than the size of the page where its end has to be seen. -/
inductive Whole (content : Bytes) : Except Error (Option Header) → Nat → Prop
  | unopened (unopened : ¬ Opened content) : Whole content (.ok none) headSize
  | closed (opened : Opened content) (first : FirstCloses content start finish)
      (enough : finish ≤ requested pieces) (least : ∀ fewer < pieces, requested fewer < finish) :
      Whole content
        (.ok (some
          { frontMatter := Text.Utf8.decodeLossy ((content.take start).drop 4)
            contentOffset := finish }))
        (requested pieces)
  | unclosed (opened : Opened content) (unclosed : ∀ start finish, 3 ≤ start → ¬ Closes content start finish)
      (large : headSize < content.length) :
      Whole content (.error (.neverClosed content.length)) (content.length + 1)
  | small (opened : Opened content) (unclosed : ∀ start finish, 3 ≤ start → ¬ Closes content start finish)
      (small : content.length ≤ headSize) : Whole content (.ok none) (content.length + 1)

theorem Closes.finish_le (closes : Closes bytes start finish) : finish ≤ bytes.length := by
  have inside := (List.getElem?_eq_some_iff.mp closes.ends).1
  omega

/-- A line feed behind the beginning of a closing line is not before its end. -/
theorem Closes.finish_le_of_lineFeed (closes : Closes bytes start finish) (behind : start < i)
    (break_ : bytes[i]? = some lineFeed) : finish ≤ i + 1 := by
  by_contra inside
  have isDash := closes.dashes i behind (by omega)
  rw [break_] at isDash
  exact absurd isDash (by decide)

theorem Closes.eq_finish (left : Closes bytes start finish) (right : Closes bytes start other) :
    finish = other := by
  have leftLong := left.long
  have rightLong := right.long
  have below := left.finish_le_of_lineFeed (i := other - 1) (by omega) right.ends
  have above := right.finish_le_of_lineFeed (i := finish - 1) (by omega) left.ends
  omega

theorem closes_take (size : Nat) :
    Closes (bytes.take size) start finish ↔ Closes bytes start finish ∧ finish ≤ size := by
  constructor
  · intro closes
    have inside := closes.finish_le
    rw [List.length_take] at inside
    obtain ⟨long, opens, dashes, ends⟩ := closes
    rw [List.getElem?_take_of_lt (by omega)] at opens ends
    refine ⟨⟨long, opens, fun i after before => ?_, ends⟩, by omega⟩
    have isDash := dashes i after before
    rwa [List.getElem?_take_of_lt (by omega)] at isDash
  · intro given
    rcases given with ⟨⟨long, opens, dashes, ends⟩, inside⟩
    refine ⟨long, ?_, fun i after before => ?_, ?_⟩
    · rwa [List.getElem?_take_of_lt (by omega)]
    · rw [List.getElem?_take_of_lt (by omega)]
      exact dashes i after before
    · rwa [List.getElem?_take_of_lt (by omega)]

theorem FirstCloses.unique (left : FirstCloses content start finish)
    (right : FirstCloses content other last) : start = other ∧ finish = last := by
  have same : start = other := by
    rcases Nat.lt_trichotomy start other with earlier | same | later
    · exact absurd left.closes (right.first start finish left.behind earlier)
    · exact same
    · exact absurd right.closes (left.first other last right.behind later)
  subst same
  exact ⟨rfl, left.closes.eq_finish right.closes⟩

theorem Whole.unique (left : Whole content outcome needed) (right : Whole content other count) :
    outcome = other ∧ needed = count := by
  cases left with
  | unopened unopened => cases right <;> first | exact ⟨rfl, rfl⟩ | exact absurd ‹_› unopened
  | @closed start finish pieces opened first enough least =>
      cases right with
      | unopened unopened => exact absurd opened unopened
      | @closed start' finish' pieces' _ first' enough' least' =>
          obtain ⟨rfl, rfl⟩ := first.unique first'
          have same : pieces = pieces' := by
            rcases Nat.lt_trichotomy pieces pieces' with fewer | same | more
            · have := least' pieces fewer
              omega
            · exact same
            · have := least pieces' more
              omega
          subst same
          exact ⟨rfl, rfl⟩
      | unclosed _ unclosed _ => exact absurd first.closes (unclosed _ _ first.behind)
      | small _ unclosed _ => exact absurd first.closes (unclosed _ _ first.behind)
  | unclosed opened unclosed large =>
      cases right with
      | unopened unopened => exact absurd opened unopened
      | closed _ first _ _ => exact absurd first.closes (unclosed _ _ first.behind)
      | unclosed _ _ _ => exact ⟨rfl, rfl⟩
      | small _ _ small => omega
  | small opened unclosed small =>
      cases right with
      | unopened unopened => exact absurd opened unopened
      | closed _ first _ _ => exact absurd first.closes (unclosed _ _ first.behind)
      | unclosed _ _ large => omega
      | small _ _ _ => exact ⟨rfl, rfl⟩

theorem takeWhile_dash (bytes : Bytes) :
    let dashes := (bytes.takeWhile (· == dash)).length
    (∀ i < dashes, bytes[i]? = some dash) ∧ bytes[dashes]? ≠ some dash := by
  induction bytes with
  | nil => simp
  | cons byte rest ih =>
      by_cases isDash : byte = dash
      · rw [List.takeWhile_cons_of_pos (by simpa using isDash)]
        refine ⟨fun i inside => ?_, ih.2⟩
        cases i with
        | zero => simp [isDash]
        | succ i => exact ih.1 i (by simpa using inside)
      · rw [List.takeWhile_cons_of_neg (by simpa using isDash)]
        exact ⟨fun i inside => absurd inside (Nat.not_lt_zero i), by simpa using isDash⟩

theorem closingLength?_eq_some {bytes : Bytes} {start : Nat} (opens : bytes[start]? = some lineFeed)
    (length : Nat) :
    closingLength? (bytes.drop (start + 1)) = some length ↔ Closes bytes start (start + 1 + length) := by
  obtain ⟨all, ends⟩ := takeWhile_dash (bytes.drop (start + 1))
  unfold closingLength?
  generalize ((bytes.drop (start + 1)).takeWhile (· == dash)).length = dashes at all ends ⊢
  simp only [Bool.and_eq_true, decide_eq_true_eq, beq_iff_eq, List.getElem?_drop] at all ends ⊢
  constructor
  · intro found
    split at found
    · rename_i closes
      cases found
      refine ⟨by omega, opens, fun i after before => ?_, ?_⟩
      · have isDash := all (i - (start + 1)) (by omega)
        rwa [Nat.add_sub_cancel' (by omega)] at isDash
      · exact closes.2
    · cases found
  · intro given
    rcases given with ⟨long, _, isDash, closing⟩
    have same : length = dashes + 1 := by
      rcases Nat.lt_trichotomy length (dashes + 1) with fewer | same | more
      · have isDash := all (length - 1) (by omega)
        rw [← Nat.add_sub_assoc (by omega), closing] at isDash
        exact absurd isDash (by decide)
      · exact same
      · exact absurd (isDash (start + 1 + dashes) (by omega) (by omega)) ends
    subst same
    exact if_pos ⟨by omega, closing⟩

theorem not_closes_of_closingLength? {bytes : Bytes} {start : Nat} (opens : bytes[start]? = some lineFeed)
    (open_ : closingLength? (bytes.drop (start + 1)) = none) (finish : Nat) :
    ¬ Closes bytes start finish := by
  intro closes
  have long := closes.long
  obtain ⟨length, rfl⟩ := Nat.exists_eq_add_of_le (show start + 1 ≤ finish by omega)
  rw [(closingLength?_eq_some opens length).mpr closes] at open_
  cases open_

/-- What the outcome of a search from an offset on says about some bytes. A search in vain ends at the
last line feed, if there is one. -/
def Search.Describes (bytes : Bytes) (offset lastBreak : Nat) : Search → Prop
  | .found start finish =>
      offset ≤ start ∧ Closes bytes start finish ∧
        ∀ earlier other, offset ≤ earlier → earlier < start → ¬ Closes bytes earlier other
  | .missing last =>
      (last = lastBreak ∨ offset ≤ last ∧ bytes[last]? = some lineFeed) ∧
        ∀ start finish, offset ≤ start → ¬ Closes bytes start finish

theorem Search.Describes.step {bytes : Bytes} {offset lastBreak last : Nat} {outcome : Search}
    (open_ : ∀ other, ¬ Closes bytes offset other) (behind : outcome.Describes bytes (offset + 1) last)
    (kept : last = lastBreak ∨ last = offset ∧ bytes[offset]? = some lineFeed) :
    outcome.Describes bytes offset lastBreak := by
  cases outcome with
  | found start finish =>
      obtain ⟨after, closes, first⟩ := behind
      refine ⟨by omega, closes, fun earlier other above below => ?_⟩
      rcases Nat.eq_or_lt_of_le above with rfl | above
      · exact open_ other
      · exact first earlier other above below
  | missing final =>
      obtain ⟨place, none⟩ := behind
      refine ⟨?_, fun start finish above => ?_⟩
      · rcases place with rfl | ⟨after, isBreak⟩
        · rcases kept with rfl | ⟨rfl, isBreak⟩
          · exact .inl rfl
          · exact .inr ⟨Nat.le_refl _, isBreak⟩
        · exact .inr ⟨by omega, isBreak⟩
      · rcases Nat.eq_or_lt_of_le above with rfl | above
        · exact open_ finish
        · exact none start finish above

theorem searchFrom_describes {bytes rest : Bytes} {offset : Nat} (lastBreak : Nat)
    (behind : bytes.drop offset = rest) :
    (searchFrom offset lastBreak rest).Describes bytes offset lastBreak := by
  induction rest generalizing offset lastBreak with
  | nil =>
      refine ⟨.inl rfl, fun start finish above closes => ?_⟩
      have inside := closes.finish_le
      have long := closes.long
      rw [List.drop_eq_nil_iff] at behind
      omega
  | cons byte rest ih =>
      have here : bytes[offset]? = some byte := by
        rw [← List.head?_drop, behind]
        rfl
      have next : bytes.drop (offset + 1) = rest := by
        rw [← List.drop_drop, behind]
        rfl
      rw [searchFrom]
      split
      · rename_i isBreak
        subst isBreak
        cases closing : closingLength? rest with
        | some length =>
            rw [← next] at closing
            refine ⟨Nat.le_refl _, (closingLength?_eq_some here length).mp closing, ?_⟩
            intro earlier other above below
            omega
        | none =>
            have further := ih offset next
            rw [← next] at closing
            exact further.step (not_closes_of_closingLength? here closing) (.inr ⟨rfl, here⟩)
      · rename_i isOther
        refine (ih lastBreak next).step (fun other closes => ?_) (.inl rfl)
        rw [closes.opens] at here
        exact isOther (Option.some.inj here).symm

theorem search_describes (buffer : Bytes) (resume : Nat) :
    (search buffer resume).Describes buffer resume resume :=
  searchFrom_describes resume rfl

/-- What is known of the content of a page when some of it has been looked at in vain: no closing line
begins before the offset at which looking goes on. -/
structure Skipped (content : Bytes) (resume : Nat) : Prop where
  behind : 3 ≤ resume
  none : ∀ start finish, 3 ≤ start → start < resume → ¬ Closes content start finish

theorem Skipped.first {content : Bytes} {resume size start finish : Nat} (skipped : Skipped content resume)
    (found : (Search.found start finish).Describes (content.take size) resume resume) :
    FirstCloses content start finish ∧ finish ≤ size := by
  obtain ⟨after, closes, first⟩ := found
  obtain ⟨closes, inside⟩ := (closes_take size).mp closes
  have behind := skipped.behind
  refine ⟨⟨by omega, closes, fun earlier other above below closesEarlier => ?_⟩, inside⟩
  rcases Nat.lt_or_ge earlier resume with before | after
  · exact skipped.none earlier other above before closesEarlier
  · have bound := closesEarlier.finish_le_of_lineFeed below closes.opens
    have long := closes.long
    exact first earlier other after below ((closes_take size).mpr ⟨closesEarlier, by omega⟩)

theorem Skipped.missing {content : Bytes} {resume size last : Nat} (skipped : Skipped content resume)
    (missing : (Search.missing last).Describes (content.take size) resume resume) :
    Skipped content last ∧ ∀ start finish, 3 ≤ start → Closes content start finish → size < finish := by
  obtain ⟨place, none⟩ := missing
  have behind := skipped.behind
  have open_ : ∀ start finish, 3 ≤ start → Closes content start finish → size < finish := by
    intro start finish above closes
    by_contra inside
    rcases Nat.lt_or_ge start resume with before | after
    · exact skipped.none start finish above before closes
    · exact none start finish after ((closes_take size).mpr ⟨closes, by omega⟩)
  refine ⟨?_, open_⟩
  rcases place with rfl | ⟨after, isBreak⟩
  · exact skipped
  · refine ⟨by omega, fun start finish above below closes => ?_⟩
    have inside := (List.getElem?_eq_some_iff.mp isBreak).1
    rw [List.length_take] at inside
    rw [List.getElem?_take_of_lt (by omega)] at isBreak
    have bound := closes.finish_le_of_lineFeed below isBreak
    have beyond := open_ start finish above closes
    omega

section Reading

variable {buffer : Bytes} {ended : Bool} {resume lastBreak : Nat} {reader rest : Reader}

theorem readOn_done {result : Except Error (Option Header)}
    (known : verdict buffer ended resume = .done result) :
    readOn buffer ended resume reader = (result, reader) := by
  unfold readOn
  split
  · rename_i other same
    rw [known] at same
    cases same
    rfl
  · rename_i other same
    rw [known] at same
    cases same

theorem readOn_failed {error : IoError} (unknown : verdict buffer ended resume = .more lastBreak)
    (failed : reader.take pieceSize = (.error error, rest)) :
    readOn buffer ended resume reader = (.error (.io error), rest) := by
  unfold readOn
  split
  · rename_i same
    rw [unknown] at same
    cases same
  · split
    · rename_i same
      rw [failed] at same
      cases same
      rfl
    · rename_i same
      rw [failed] at same
      cases same

theorem readOn_more {piece : Bytes} {now : Bool} (unknown : verdict buffer ended resume = .more lastBreak)
    (taken : reader.take pieceSize = (.ok (piece, now), rest)) :
    readOn buffer ended resume reader = readOn (buffer ++ piece) now lastBreak rest := by
  rw [readOn]
  split
  · rename_i same
    rw [unknown] at same
    cases same
  · rename_i same
    rw [unknown] at same
    cases same
    split
    · rename_i same
      rw [taken] at same
      cases same
    · rename_i same
      rw [taken] at same
      cases same
      rfl

end Reading

/-- What a reader gives when the page as a whole is known: the failure of the reader stands in for an
outcome that only the end of the page could settle. -/
def Settles (content : Bytes) (broken : Bool) (outcome : Except Error (Option Header)) (needed : Nat)
    (result : Except Error (Option Header) × Reader) : Prop :=
  result.2.bytes = content.drop needed ∧
    result.1 = if content.length < needed ∧ broken = true then .error (.io Reader.failure) else outcome

/-- A search from the line feed of the opening line finds the first closing line. -/
theorem firstCloses_of_search {content : Bytes} {start finish : Nat}
    (found : search content 3 = .found start finish) : FirstCloses content start finish := by
  have searched := search_describes content 3
  rw [found] at searched
  exact ⟨searched.1, searched.2.1, searched.2.2⟩

/-- A result that what is known of the page as a whole accounts for. -/
def Settled (content : Bytes) (broken : Bool) (result : Except Error (Option Header) × Reader) : Prop :=
  ∃ outcome needed, Whole content outcome needed ∧ Settles content broken outcome needed result

theorem closed_or_unclosed (content : Bytes) :
    (∃ start finish, FirstCloses content start finish) ∨
      ∀ start finish, 3 ≤ start → ¬ Closes content start finish := by
  cases outcome : search content 3 with
  | found start finish => exact .inl ⟨start, finish, firstCloses_of_search outcome⟩
  | missing last =>
      have searched := search_describes content 3
      rw [outcome] at searched
      exact .inr searched.2

theorem whole_of_unclosed {content : Bytes} (opened : Opened content)
    (unclosed : ∀ start finish, 3 ≤ start → ¬ Closes content start finish) :
    Whole content
      (if headSize < content.length then .error (.neverClosed content.length) else .ok none)
      (content.length + 1) := by
  split
  · rename_i large
    exact .unclosed opened unclosed large
  · rename_i small
    exact .small opened unclosed (Nat.le_of_not_lt small)

/-- A page that ends within the bytes asked for next, and whose header is not known before that. -/
theorem exists_whole_of_short {content : Bytes} (opened : Opened content) {pieces : Nat}
    (short : content.length < requested (pieces + 1))
    (open_ : ∀ start finish, 3 ≤ start → Closes content start finish →
      ∀ fewer < pieces + 1, requested fewer < finish) :
    ∃ outcome needed, Whole content outcome needed ∧ content.length < needed := by
  rcases closed_or_unclosed content with ⟨start, finish, first⟩ | unclosed
  · have inside := first.closes.finish_le
    have least := open_ start finish first.behind first.closes
    exact ⟨_, _, .closed opened first (by omega) least, short⟩
  · exact ⟨_, _, whole_of_unclosed opened unclosed, Nat.lt_succ_self _⟩

theorem requested_succ (pieces : Nat) : requested (pieces + 1) = requested pieces + pieceSize := by
  unfold requested
  rw [Nat.mul_succ, Nat.add_assoc]

/-- What is known where reading goes on: some pieces behind the head have been asked for, and no closing
line ends within fewer of them or begins before the offset at which looking goes on. -/
structure Reading (content : Bytes) (pieces resume : Nat) (reader : Reader) : Prop where
  opened : Opened content
  bytes : reader.bytes = content.drop (requested pieces)
  seen : content.length < requested pieces → reader.broken = false
  skipped : Skipped content resume
  beyond : ∀ start finish, 3 ≤ start → Closes content start finish →
    ∀ fewer < pieces, requested fewer < finish

/-- Reading on with some pieces behind the head. -/
def readFrom (content : Bytes) (pieces resume : Nat) (reader : Reader) :
    Except Error (Option Header) × Reader :=
  readOn (content.take (requested pieces)) (decide (content.length < requested pieces)) resume reader

namespace Reading

variable {content : Bytes} {pieces resume start finish last : Nat} {reader rest : Reader}

theorem found (reading : Reading content pieces resume reader)
    (outcome : search (content.take (requested pieces)) resume = .found start finish) :
    Settled content reader.broken (readFrom content pieces resume reader) := by
  have searched := search_describes (content.take (requested pieces)) resume
  rw [outcome] at searched
  obtain ⟨first, enough⟩ := reading.skipped.first searched
  have least := reading.beyond start finish first.behind first.closes
  have known : verdict (content.take (requested pieces)) (decide (content.length < requested pieces))
      resume = .done (.ok (some (ofClosing (content.take (requested pieces)) start finish))) := by
    rw [verdict, outcome]
  have long := first.closes.long
  have same : ofClosing (content.take (requested pieces)) start finish =
      { frontMatter := Text.Utf8.decodeLossy ((content.take start).drop 4)
        contentOffset := finish } := by
    rw [ofClosing, List.take_take, Nat.min_eq_left (by omega)]
    rfl
  refine ⟨_, _, .closed reading.opened first enough least, ?_⟩
  rw [readFrom, readOn_done known, same]
  refine ⟨reading.bytes, ?_⟩
  rw [if_neg]
  intro given
  rcases given with ⟨short, broken⟩
  rw [reading.seen short] at broken
  cases broken

theorem ended (reading : Reading content pieces resume reader)
    (outcome : search (content.take (requested pieces)) resume = .missing last)
    (short : content.length < requested pieces) :
    Settled content reader.broken (readFrom content pieces resume reader) := by
  have searched := search_describes (content.take (requested pieces)) resume
  rw [outcome] at searched
  obtain ⟨-, beyond⟩ := reading.skipped.missing searched
  have whole : content.take (requested pieces) = content := List.take_of_length_le (by omega)
  have unclosed : ∀ start finish, 3 ≤ start → ¬ Closes content start finish := by
    intro start finish above closes
    have inside := closes.finish_le
    have outside := beyond start finish above closes
    omega
  have known : verdict (content.take (requested pieces)) (decide (content.length < requested pieces))
      resume = .done (if headSize < content.length then .error (.neverClosed content.length)
        else .ok none) := by
    rw [verdict, outcome, whole]
    simp only [short, decide_true, Bool.not_true, Bool.false_eq_true, if_false]
    split <;> rfl
  refine ⟨_, _, whole_of_unclosed reading.opened unclosed, ?_⟩
  rw [readFrom, readOn_done known]
  refine ⟨?_, ?_⟩
  · rw [reading.bytes, List.drop_of_length_le (by omega), List.drop_of_length_le (by omega)]
  · simp [reading.seen short]

/-- A search in vain leaves nothing of the pieces asked for so far to look at again but the last line. -/
theorem missing (reading : Reading content pieces resume reader)
    (outcome : search (content.take (requested pieces)) resume = .missing last) :
    Skipped content last ∧ ∀ start finish, 3 ≤ start → Closes content start finish →
      ∀ fewer < pieces + 1, requested fewer < finish := by
  have searched := search_describes (content.take (requested pieces)) resume
  rw [outcome] at searched
  obtain ⟨skipped, beyond⟩ := reading.skipped.missing searched
  refine ⟨skipped, fun start finish above closes fewer less => ?_⟩
  rcases Nat.lt_or_eq_of_le (Nat.le_of_lt_succ less) with less | rfl
  · exact reading.beyond start finish above closes fewer less
  · exact beyond start finish above closes

/-- One step of reading on: the reader fails, or a piece more has been asked for. -/
theorem step (reading : Reading content pieces resume reader)
    (outcome : search (content.take (requested pieces)) resume = .missing last)
    (more : ¬ content.length < requested pieces) :
    Settled content reader.broken (readFrom content pieces resume reader) ∨
      ∃ rest, Reading content (pieces + 1) last rest ∧ rest.broken = reader.broken ∧
        readFrom content pieces resume reader = readFrom content (pieces + 1) last rest := by
  have unknown : verdict (content.take (requested pieces)) (decide (content.length < requested pieces))
      resume = .more last := by
    rw [verdict, outcome]
    simp [more]
  have size : reader.bytes.length = content.length - requested pieces := by
    rw [reading.bytes, List.length_drop]
  have next := requested_succ pieces
  obtain ⟨skipped, beyond⟩ := reading.missing outcome
  obtain ⟨rest, left, broken, taken⟩ := reader.exists_take pieceSize
  rw [reading.bytes, List.drop_drop, ← next] at left
  by_cases failed : content.length < requested (pieces + 1) ∧ reader.broken = true
  · obtain ⟨result, needed, whole, behind⟩ := exists_whole_of_short reading.opened failed.1 beyond
    rw [if_pos ⟨by omega, failed.2⟩] at taken
    refine .inl ⟨result, needed, whole, ?_⟩
    rw [readFrom, readOn_failed unknown taken]
    refine ⟨?_, (if_pos ⟨behind, failed.2⟩).symm⟩
    rw [left, List.drop_of_length_le (by omega), List.drop_of_length_le (by omega)]
  · have alive : ¬ (reader.bytes.length < pieceSize ∧ reader.broken = true) := fun both =>
      failed ⟨by omega, both.2⟩
    have seen : content.length < requested (pieces + 1) → rest.broken = false := by
      intro short
      rw [broken]
      by_contra notBroken
      exact failed ⟨short, by simpa using notBroken⟩
    have now : decide ((content.drop (requested pieces)).length < pieceSize) =
        decide (content.length < requested (pieces + 1)) := by
      rw [← reading.bytes, decide_eq_decide]
      omega
    rw [if_neg alive] at taken
    refine .inr ⟨rest, ⟨reading.opened, left, seen, skipped, beyond⟩, broken, ?_⟩
    rw [readFrom, readOn_more unknown taken, reading.bytes, ← List.take_add, ← next, now]
    rfl

end Reading

theorem Reading.settled {content : Bytes} {pieces resume : Nat} {reader : Reader}
    (reading : Reading content pieces resume reader) :
    Settled content reader.broken (readFrom content pieces resume reader) := by
  cases outcome : search (content.take (requested pieces)) resume with
  | found start finish => exact reading.found outcome
  | missing last =>
      by_cases short : content.length < requested pieces
      · exact reading.ended outcome short
      · rcases reading.step outcome short with settled | ⟨rest, next, broken, same⟩
        · exact settled
        · rw [same, ← broken]
          exact next.settled
termination_by content.length + 1 - requested pieces
decreasing_by
  rw [requested_succ]
  unfold pieceSize
  omega

theorem opened_take (content : Bytes) :
    (¬ (content.take headSize).length < leastSize ∧ opening.isPrefixOf (content.take headSize) = true) ↔
      Opened content := by
  have head : opening <+: content.take headSize ↔ opening <+: content := by
    rw [List.prefix_take_iff]
    exact and_iff_left (by decide)
  rw [List.isPrefixOf_iff_prefix, head, List.length_take]
  unfold Opened headSize leastSize
  constructor
  · intro given
    rcases given with ⟨long, begins⟩
    exact ⟨by omega, begins⟩
  · intro given
    rcases given with ⟨long, begins⟩
    exact ⟨by omega, begins⟩

theorem settled_of_failed {reader rest : Reader} (left : rest.bytes = reader.bytes.drop headSize)
    (failed : reader.bytes.length < headSize ∧ reader.broken = true) :
    Settled reader.bytes reader.broken (.error (.io Reader.failure), rest) := by
  obtain ⟨outcome, needed, whole, behind⟩ :
      ∃ outcome needed, Whole reader.bytes outcome needed ∧ reader.bytes.length < needed := by
    by_cases opened : Opened reader.bytes
    · rcases closed_or_unclosed reader.bytes with ⟨start, finish, first⟩ | unclosed
      · have inside := first.closes.finish_le
        have head : requested 0 = headSize := rfl
        exact ⟨_, _, .closed opened first (by omega) (fun _ none => absurd none (Nat.not_lt_zero _)),
          failed.1⟩
      · exact ⟨_, _, whole_of_unclosed opened unclosed, Nat.lt_succ_self _⟩
    · exact ⟨_, _, .unopened opened, failed.1⟩
  refine ⟨outcome, needed, whole, ?_, (if_pos ⟨behind, failed.2⟩).symm⟩
  rw [left, List.drop_of_length_le (by omega), List.drop_of_length_le (by omega)]

theorem read_settled (reader : Reader) : Settled reader.bytes reader.broken (read reader) := by
  obtain ⟨rest, left, broken, taken⟩ := reader.exists_take headSize
  by_cases failed : reader.bytes.length < headSize ∧ reader.broken = true
  · rw [if_pos failed] at taken
    unfold read
    rw [taken]
    exact settled_of_failed left failed
  · rw [if_neg failed] at taken
    have begins := opened_take reader.bytes
    by_cases opened : Opened reader.bytes
    · obtain ⟨long, isPrefix⟩ := begins.mpr opened
      have result : read reader = readFrom reader.bytes 0 3 rest := by
        unfold read
        rw [taken]
        simp only [long, isPrefix, decide_false, Bool.not_true, Bool.or_self, Bool.false_eq_true, if_false]
        rfl
      have seen : reader.bytes.length < requested 0 → rest.broken = false := by
        intro short
        rw [broken]
        by_contra notBroken
        exact failed ⟨short, by simpa using notBroken⟩
      have skipped : Skipped reader.bytes 3 :=
        ⟨Nat.le_refl 3, fun start finish above below => absurd below (Nat.not_lt_of_le above)⟩
      have reading : Reading reader.bytes 0 3 rest :=
        ⟨opened, left, seen, skipped, fun _ _ _ _ _ none => absurd none (Nat.not_lt_zero _)⟩
      rw [result, ← broken]
      exact reading.settled
    · refine ⟨_, _, .unopened opened, ?_⟩
      have result : read reader = (.ok none, rest) := by
        unfold read
        rw [taken]
        rw [← begins] at opened
        dsimp only
        rw [if_pos]
        rw [Bool.or_eq_true, decide_eq_true_eq, Bool.not_eq_true']
        by_contra neither
        rw [not_or, Bool.not_eq_false] at neither
        exact opened neither
      rw [result]
      exact ⟨left, (if_neg failed).symm⟩

/-- A reader that does not fail gives the header that the first closing line ends. -/
theorem read_of_firstCloses {reader : Reader} {start finish : Nat} (intact : reader.broken = false)
    (opened : Opened reader.bytes) (first : FirstCloses reader.bytes start finish) :
    (read reader).1 =
      .ok (some
        { frontMatter := Text.Utf8.decodeLossy ((reader.bytes.take start).drop 4)
          contentOffset := finish }) := by
  obtain ⟨outcome, needed, whole, settles⟩ := read_settled reader
  have result : (read reader).1 = outcome := by
    rw [settles.2, intact, if_neg (by simp)]
  rw [result]
  cases whole with
  | unopened unopened => exact absurd opened unopened
  | closed _ other _ _ =>
      obtain ⟨rfl, rfl⟩ := first.unique other
      rfl
  | unclosed _ unclosed _ => exact absurd first.closes (unclosed _ _ first.behind)
  | small _ unclosed _ => exact absurd first.closes (unclosed _ _ first.behind)

/-- The header of a page is that of the page as a whole, in whatever pieces it is handed out. Reading asks
for no more bytes than the header takes to be known, and a reader that fails where the page ends
is noticed exactly if more bytes were asked for than there are. -/
theorem read_settles (reader : Reader) :
    (∃ outcome needed, Whole reader.bytes outcome needed) ∧
      ∀ outcome needed, Whole reader.bytes outcome needed →
        (read reader).2.bytes = reader.bytes.drop needed ∧
          (read reader).1 =
            if reader.bytes.length < needed ∧ reader.broken = true then .error (.io Reader.failure)
            else outcome := by
  obtain ⟨outcome, needed, whole, settles⟩ := read_settled reader
  refine ⟨⟨outcome, needed, whole⟩, fun other count same => ?_⟩
  obtain ⟨rfl, rfl⟩ := whole.unique same
  exact settles

end Header

end StaticSite
