import StaticSite.Proofs.Text.Location
import StaticSite.Proofs.Text.Utf8

/-!
Lenient decoding keeps lines. Any part that a decoded text begins with was decoded from bytes that stand at the
beginning as well, and it has as many line feeds as they have. Columns are kept where the bytes are UTF-8.
-/

namespace StaticSite.Text

namespace Utf8

/-! ## The bytes of one step -/

/-- The bytes that a step takes behind the first one. They are taken whatever part of the rest stands behind them, and
no line feed is among the bytes of no character. -/
structure Takes (lead : UInt8) (rest taken : Bytes) : Prop where
  split : rest = taken ++ (step lead rest).2
  again : ∀ other, other <+: (step lead rest).2 → step lead (taken ++ other) = ((step lead rest).1, other)
  broken : (step lead rest).1 = none → 0x0A ∉ lead :: taken

/-- A character takes its bytes whatever stands behind them. -/
theorem takes_char (taken : Bytes) {lead : UInt8} {rest : Bytes} {c : Char}
    (reads : ∀ rest, step lead (taken ++ rest) = (some c, rest)) : Takes lead (taken ++ rest) taken := by
  constructor
  · rw [reads]
  · intro other _
    rw [reads, reads]
  · rw [reads]
    exact fun none => by cases none

/-- Bytes of no character are taken up to the first that does not go on. -/
theorem takes_none (taken : Bytes) {lead next : UInt8} {rest : Bytes} (short : step lead taken = (none, []))
    (stops : ∀ rest, step lead (taken ++ next :: rest) = (none, next :: rest)) (noFeed : 0x0A ∉ lead :: taken) :
    Takes lead (taken ++ next :: rest) taken := by
  constructor
  · rw [stops]
  · intro other leads
    rw [stops] at leads ⊢
    rcases List.prefix_cons_iff.mp leads with rfl | ⟨more, rfl, -⟩
    · rwa [List.append_nil]
    · exact stops more
  · exact fun _ => noFeed

theorem takes_end {lead : UInt8} {taken : Bytes} (short : step lead taken = (none, []))
    (noFeed : 0x0A ∉ lead :: taken) : Takes lead taken taken := by
  constructor
  · rw [short, List.append_nil]
  · intro other leads
    rw [short] at leads ⊢
    rw [List.prefix_nil.mp leads, List.append_nil, short]
  · exact fun _ => noFeed

theorem ne_lineFeed_of_le {b : UInt8} (high : 0x80 ≤ b.toNat) : 0x0A ≠ b := by
  rintro rfl
  revert high
  decide

theorem exists_takes (lead : UInt8) (rest : Bytes) : ∃ taken, Takes lead rest taken := by
  by_cases ascii : lead < 0x80
  · exact ⟨[], takes_char [] (c := Char.ofNat lead.toNat) fun rest => by simp [step.eq_def, ascii]⟩
  have notFeed : 0x0A ≠ lead := by
    rintro rfl
    exact ascii (by decide)
  by_cases leads : lead < 0xC2 ∨ 0xF4 < lead
  · have reads (rest : Bytes) : step lead rest = (none, rest) := by simp [step.eq_def, ascii, leads]
    refine ⟨[], by rw [reads]; rfl, fun other _ => by rw [reads, reads]; rfl, fun _ => by simpa using notFeed⟩
  cases rest with
  | nil => exact ⟨[], takes_end (by simp [step, ascii, leads]) (by simpa using notFeed)⟩
  | cons second rest =>
    by_cases outside : second < (secondRange lead).1 ∨ (secondRange lead).2 < second
    · exact ⟨[], takes_none [] (by simp [step, ascii, leads])
        (fun rest => by simp [step, ascii, leads, outside]) (by simpa using notFeed)⟩
    have within : (secondRange lead).1 ≤ second ∧ second ≤ (secondRange lead).2 := by
      rwa [not_or, UInt8.not_lt, UInt8.not_lt] at outside
    have secondHigh := ne_lineFeed_of_le (seconds_of_within within).1
    by_cases two : lead < 0xE0
    · exact ⟨[second], takes_char [second] fun rest => by simp [step, ascii, leads, within, two]; rfl⟩
    cases rest with
    | nil => exact ⟨[second], takes_end (by simp [step, ascii, leads, within, two]) (by simp [notFeed, secondHigh])⟩
    | cons third rest =>
      by_cases tail : isTail third
      case neg =>
        exact ⟨[second], takes_none [second] (by simp [step, ascii, leads, within, two])
          (fun rest => by simp [step, ascii, leads, within, two, tail]) (by simp [notFeed, secondHigh])⟩
      have thirdHigh := ne_lineFeed_of_le (isTail_iff.mp tail).1
      by_cases three : lead < 0xF0
      · exact ⟨[second, third], takes_char [second, third] fun rest => by
          simp [step, ascii, leads, within, two, tail, three]; rfl⟩
      cases rest with
      | nil =>
        exact ⟨[second, third], takes_end (by simp [step, ascii, leads, within, two, tail, three])
          (by simp [notFeed, secondHigh, thirdHigh])⟩
      | cons fourth rest =>
        by_cases last : isTail fourth
        · exact ⟨[second, third, fourth], takes_char [second, third, fourth] fun rest => by
            simp [step, ascii, leads, within, two, tail, three, last]; rfl⟩
        · exact ⟨[second, third], takes_none [second, third]
            (by simp [step, ascii, leads, within, two, tail, three])
            (fun rest => by simp [step, ascii, leads, within, two, tail, three, last])
            (by simp [notFeed, secondHigh, thirdHigh])⟩

/-! ## Cutting bytes -/

/-- Bytes can be cut wherever their characters can. -/
theorem exists_cut {bytes : Bytes} {before after : List (Option Char)} (split : characters bytes = before ++ after) :
    ∃ front behind, bytes = front ++ behind ∧ characters front = before ∧ characters behind = after := by
  fun_induction characters bytes generalizing before with
  | case1 =>
      obtain ⟨rfl, rfl⟩ := List.append_eq_nil_iff.mp split.symm
      exact ⟨[], [], rfl, by rw [characters], by rw [characters]⟩
  | case2 lead rest ih =>
      cases before with
      | nil => exact ⟨[], lead :: rest, rfl, by rw [characters], by rw [characters, split, List.nil_append]⟩
      | cons first others =>
          rw [List.cons_append, List.cons.injEq] at split
          obtain ⟨taken, takes⟩ := exists_takes lead rest
          obtain ⟨front, behind, cut, read, after⟩ := ih split.2
          refine ⟨lead :: (taken ++ front), behind, ?_, ?_, after⟩
          · rw [List.cons_append, List.append_assoc, ← cut, ← takes.split]
          · rw [characters, takes.again front ⟨behind, cut.symm⟩, read, split.1]

theorem count_encodeChar (c : Char) : (String.utf8EncodeChar c).count 0x0A = if c = '\n' then 1 else 0 := by
  split
  next feed =>
    subst feed
    rfl
  next other =>
    refine List.count_eq_zero.mpr fun member => other ?_
    have same := ascii_of_mem member (by decide)
    rw [← Char.ofNat_toNat c, same]
    rfl

/-- There are as many line feeds among the characters as among the bytes. -/
theorem count_characters (bytes : Bytes) : (characters bytes).count (some '\n') = bytes.count 0x0A := by
  fun_induction characters bytes with
  | case1 => rfl
  | case2 lead rest ih =>
      rw [List.count_cons, ih]
      cases read : (step lead rest).1 with
      | none =>
          obtain ⟨taken, takes⟩ := exists_takes lead rest
          have whole : lead :: rest = (lead :: taken) ++ (step lead rest).2 := by rw [List.cons_append, ← takes.split]
          rw [whole, List.count_append, List.count_eq_zero.mpr (takes.broken read)]
          simp
      | some c =>
          rw [← encodeChar_of_step (Prod.ext read rfl), List.count_append, count_encodeChar]
          simp [Nat.add_comm]

theorem toList_decodeLossy (bytes : Bytes) :
    (decodeLossy bytes).toList = (characters bytes).map (·.getD '\uFFFD') := by
  rw [decodeLossy, String.toList_ofList]

theorem count_decodeLossy (bytes : Bytes) : (decodeLossy bytes).toList.count '\n' = bytes.count 0x0A := by
  rw [toList_decodeLossy, ← count_characters, List.count_eq_countP, List.count_eq_countP, List.countP_map]
  refine List.countP_congr fun read _ => ?_
  cases read with
  | none => decide
  | some c => simp

/-- A part that a decoded text begins with was decoded from the beginning of its bytes. -/
theorem exists_cut_of_decodeLossy {bytes : Bytes} {before : List Char} (leads : before <+: (decodeLossy bytes).toList) :
    ∃ front behind, bytes = front ++ behind ∧ (decodeLossy front).toList = before := by
  obtain ⟨after, split⟩ := leads
  rw [toList_decodeLossy] at split
  obtain ⟨first, second, read, rfl, -⟩ := List.append_eq_map_iff.mp split
  obtain ⟨front, behind, cut, read, -⟩ := exists_cut read
  exact ⟨front, behind, cut, by rw [toList_decodeLossy, read]⟩

/-- Characters that were read stand among the bytes as they are written. -/
theorem infix_of_decodeLossy {bytes : Bytes} {chars : List Char} (known : '\uFFFD' ∉ chars)
    (within : chars <:+: (decodeLossy bytes).toList) : chars.flatMap String.utf8EncodeChar <:+: bytes := by
  obtain ⟨before, after, split⟩ := within
  rw [toList_decodeLossy] at split
  obtain ⟨_, last, read, written, rfl⟩ := List.append_eq_map_iff.mp split
  obtain ⟨first, middle, rfl, rfl, rfl⟩ := List.append_eq_map_iff.mp written.symm
  obtain ⟨front, behind, rfl, readFront, -⟩ := exists_cut read
  obtain ⟨start, inner, rfl, -, readInner⟩ := exists_cut readFront
  have whole : middle = (middle.map (·.getD '\uFFFD')).map some := by
    rw [List.map_map]
    refine (List.map_id _).symm.trans (List.map_congr_left fun c member => ?_)
    cases c with
    | none => exact absurd (List.mem_map.mpr ⟨none, member, rfl⟩) known
    | some c => rfl
  rw [whole] at readInner
  exact ⟨start, behind, by rw [encode_of_characters readInner]⟩

end Utf8

/-! ## Places -/

open Utf8

/-- The place right behind some bytes: their line feeds and the bytes since the last of them, counted from one. -/
def Location.behindBytes (before : Bytes) : Location :=
  { line := 1 + before.count 0x0A, column := 1 + (before.rtakeWhile (· != 0x0A)).length }

/-- Bytes that end where a line does. -/
def EndsLine (bytes : Bytes) : Prop := bytes = [] ∨ bytes.getLast? = some 0x0A

/-- What stands behind the end of a line does not depend on the line. -/
theorem rtakeWhile_append_of_ends {α : Type} {p : α → Bool} {up : List α}
    (ends : up = [] ∨ ∃ last, up.getLast? = some last ∧ p last = false) (line : List α) :
    (up ++ line).rtakeWhile p = line.rtakeWhile p := by
  rcases ends with rfl | ⟨last, ends, stops⟩
  · rfl
  · obtain ⟨front, rfl⟩ := List.getLast?_eq_some_iff.mp ends
    simp only [List.rtakeWhile, List.reverse_append, List.reverse_cons, List.reverse_nil, List.nil_append,
      List.takeWhile_append, List.takeWhile_cons, List.cons_append, stops]
    split
    next whole =>
      rw [(List.takeWhile_prefix p).eq_of_length whole]
      simp
    next => rfl

theorem EndsLine.rtakeWhile_append {up : Bytes} (ends : EndsLine up) (line : Bytes) :
    (up ++ line).rtakeWhile (· != 0x0A) = line.rtakeWhile (· != 0x0A) :=
  rtakeWhile_append_of_ends (ends.imp_right fun last => ⟨_, last, by decide⟩) line

/-- Behind whole lines, lines count on and columns are those of the rest. -/
theorem EndsLine.behindBytes_append {up : Bytes} (ends : EndsLine up) (rest : Bytes) :
    (Location.behindBytes (up ++ rest)).line = up.count 0x0A + (Location.behindBytes rest).line ∧
      (Location.behindBytes (up ++ rest)).column = (Location.behindBytes rest).column := by
  constructor
  · simp only [Location.behindBytes, List.count_append]
    omega
  · simp only [Location.behindBytes, ends.rtakeWhile_append]

theorem endsLine_of_characters {bytes : Bytes}
    (ends : characters bytes = [] ∨ (characters bytes).getLast? = some (some '\n')) : EndsLine bytes := by
  rcases ends with nothing | ends
  · cases bytes with
    | nil => exact .inl rfl
    | cons lead rest =>
        rw [characters] at nothing
        cases nothing
  · obtain ⟨before, split⟩ := List.getLast?_eq_some_iff.mp ends
    obtain ⟨front, feed, rfl, -, read⟩ := exists_cut split
    have last : feed = [0x0A] := (encode_of_characters (show characters feed = ['\n'].map some from read)).symm
    exact .inr (by rw [last, List.getLast?_append]; rfl)

theorem rtakeWhile_map {α β : Type} (f : α → β) (p : β → Bool) (l : List α) :
    (l.map f).rtakeWhile p = (l.rtakeWhile (p ∘ f)).map f := by
  rw [List.rtakeWhile, List.rtakeWhile, ← List.map_reverse, List.takeWhile_map, List.map_reverse]

/-- The last line of a decoded text is decoded from the last line of the bytes. -/
theorem rtakeWhile_decodeLossy (bytes : Bytes) :
    (decodeLossy bytes).toList.rtakeWhile (· != '\n') = (decodeLossy (bytes.rtakeWhile (· != 0x0A))).toList := by
  let inLine : Option Char → Bool := (· != some '\n')
  obtain ⟨up, line, rfl, above, read⟩ := exists_cut
    (List.rdropWhile_append_rtakeWhile (p := inLine) (l := characters bytes)).symm
  have ends : EndsLine up := by
    refine endsLine_of_characters (or_iff_not_imp_left.mpr fun nonempty => ?_)
    rw [above] at nonempty ⊢
    have last := List.rdropWhile_last_not inLine (characters (up ++ line)) nonempty
    rw [List.getLast?_eq_some_getLast nonempty]
    simpa [inLine] using last
  have unbroken : 0x0A ∉ line := by
    rw [← List.count_eq_zero, ← count_characters, read, List.count_eq_zero]
    intro feed
    simpa [inLine] using List.mem_rtakeWhile_imp feed
  have whole : line.rtakeWhile (· != 0x0A) = line := by
    refine List.rtakeWhile_eq_self_iff.mpr fun b member => bne_iff_ne.mpr ?_
    rintro rfl
    exact unbroken member
  have same : (· != '\n') ∘ (·.getD '\uFFFD') = inLine := by
    funext read
    cases read with
    | none => rfl
    | some c => simp [inLine, bne]
  rw [ends.rtakeWhile_append, whole, toList_decodeLossy, toList_decodeLossy, rtakeWhile_map, same, read]

theorem line_behindBytes (bytes : Bytes) :
    (Location.behind (decodeLossy bytes).toList).line = (Location.behindBytes bytes).line := by
  simp only [Location.behind, Location.behindBytes, count_decodeLossy]

theorem byteLength_eq_length_encode (text : String) : byteLength text.toList = (encode text).length := by
  rw [encode]
  induction text.toList with
  | nil => rfl
  | cons c rest ih => rw [byteLength_cons, ih, List.flatMap_cons, List.length_append, String.length_utf8EncodeChar]

theorem column_behindBytes {bytes : Bytes} (valid : (decode? (bytes.rtakeWhile (· != 0x0A))).isSome) :
    (Location.behind (decodeLossy bytes).toList).column = (Location.behindBytes bytes).column := by
  obtain ⟨line, decoded⟩ := Option.isSome_iff_exists.mp valid
  simp only [Location.behind, Location.behindBytes, rtakeWhile_decodeLossy, decodeLossy_of_decode? decoded,
    byteLength_eq_length_encode, encode_of_decode? decoded]

end StaticSite.Text
