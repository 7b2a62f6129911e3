import Mathlib.Tactic.SplitIfs
import StaticSite.Text.Utf8

/-!
Reading UTF-8 undoes writing it, for the lenient reader too: the bytes of a text are its characters. Bytes
that the strict reader takes are written again as they were.
-/

namespace StaticSite.Text.Utf8

variable {lead second third fourth : UInt8}

/-- Whether a byte may stand second in a longer character, by numbers. The bounds keep out what a shorter
character could be, surrogates, and what is beyond the last character. -/
def Seconds (lead second : Nat) : Prop :=
  0x80 ≤ second ∧ second ≤ 0xBF ∧ (lead = 0xE0 → 0xA0 ≤ second) ∧ (lead = 0xED → second ≤ 0x9F) ∧
    (lead = 0xF0 → 0x90 ≤ second) ∧ (lead = 0xF4 → second ≤ 0x8F)

theorem within_secondRange (seconds : Seconds lead.toNat second.toNat) :
    (secondRange lead).1 ≤ second ∧ second ≤ (secondRange lead).2 := by
  obtain ⟨least, most, afterE0, afterED, afterF0, afterF4⟩ := seconds
  simp only [secondRange, beq_iff_eq, ← UInt8.toNat_inj, UInt8.le_iff_toNat_le, UInt8.reduceToNat]
  split_ifs <;> simp only [UInt8.reduceToNat] <;> omega

theorem isTail_iff : isTail third = true ↔ 0x80 ≤ third.toNat ∧ third.toNat ≤ 0xBF := by
  simp [isTail, UInt8.le_iff_toNat_le]

theorem step_one (ascii : lead.toNat < 0x80) (rest : Bytes) :
    step lead rest = (some (Char.ofNat lead.toNat), rest) := by
  unfold step
  exact if_pos (UInt8.lt_iff_toNat_lt.mpr ascii)

theorem step_two (least : 0xC2 ≤ lead.toNat) (most : lead.toNat < 0xE0)
    (seconds : Seconds lead.toNat second.toNat) (rest : Bytes) :
    step lead (second :: rest) =
      (some (Char.ofNat ((lead.toNat - 0xC0) * 64 + tailBits second)), rest) := by
  have within := within_secondRange seconds
  have long : ¬ lead < 0x80 := by
    simp only [UInt8.lt_iff_toNat_lt, UInt8.reduceToNat]
    omega
  have leads : ¬ (lead < 0xC2 ∨ 0xF4 < lead) := by
    simp only [UInt8.lt_iff_toNat_lt, UInt8.reduceToNat]
    omega
  have two : lead < 0xE0 := UInt8.lt_iff_toNat_lt.mpr most
  simp [step, long, leads, within, two]

theorem step_three (least : 0xE0 ≤ lead.toNat) (most : lead.toNat < 0xF0)
    (seconds : Seconds lead.toNat second.toNat) (tail : isTail third = true) (rest : Bytes) :
    step lead (second :: third :: rest) =
      (some (Char.ofNat
        ((lead.toNat - 0xE0) * 4096 + tailBits second * 64 + tailBits third)), rest) := by
  have within := within_secondRange seconds
  have long : ¬ lead < 0x80 := by
    simp only [UInt8.lt_iff_toNat_lt, UInt8.reduceToNat]
    omega
  have leads : ¬ (lead < 0xC2 ∨ 0xF4 < lead) := by
    simp only [UInt8.lt_iff_toNat_lt, UInt8.reduceToNat]
    omega
  have notTwo : ¬ lead < 0xE0 := by
    simp only [UInt8.lt_iff_toNat_lt, UInt8.reduceToNat]
    omega
  have three : lead < 0xF0 := UInt8.lt_iff_toNat_lt.mpr most
  simp [step, long, leads, within, notTwo, tail, three]

theorem step_four (least : 0xF0 ≤ lead.toNat) (most : lead.toNat ≤ 0xF4)
    (seconds : Seconds lead.toNat second.toNat) (tail : isTail third = true)
    (last : isTail fourth = true) (rest : Bytes) :
    step lead (second :: third :: fourth :: rest) =
      (some (Char.ofNat ((lead.toNat - 0xF0) * 262144 + tailBits second * 4096 +
        tailBits third * 64 + tailBits fourth)), rest) := by
  have within := within_secondRange seconds
  have long : ¬ lead < 0x80 := by
    simp only [UInt8.lt_iff_toNat_lt, UInt8.reduceToNat]
    omega
  have leads : ¬ (lead < 0xC2 ∨ 0xF4 < lead) := by
    simp only [UInt8.lt_iff_toNat_lt, UInt8.reduceToNat]
    omega
  have notTwo : ¬ lead < 0xE0 := by
    simp only [UInt8.lt_iff_toNat_lt, UInt8.reduceToNat]
    omega
  have notThree : ¬ lead < 0xF0 := by
    simp only [UInt8.lt_iff_toNat_lt, UInt8.reduceToNat]
    omega
  simp [step, long, leads, within, notTwo, tail, notThree, last]

theorem exists_toNat {n : Nat} (bound : n < 256) : ∃ b : UInt8, b = UInt8.ofNat n ∧ b.toNat = n := by
  refine ⟨_, rfl, ?_⟩
  rw [UInt8.toNat_ofNat']
  omega

theorem exists_step (c : Char) (rest : Bytes) :
    ∃ lead more, String.utf8EncodeChar c = lead :: more ∧ step lead (more ++ rest) = (some c, rest) := by
  have valid : c.val.toNat < 0xD800 ∨ 0xDFFF < c.val.toNat ∧ c.val.toNat < 0x110000 := c.valid
  have char : Char.ofNat c.val.toNat = c := Char.ofNat_toNat c
  unfold String.utf8EncodeChar
  generalize c.val.toNat = v at valid char ⊢
  obtain ⟨tail, tailByte, tailNat⟩ := exists_toNat (n := v % 0x40 + 0x80) (by omega)
  obtain ⟨third, thirdByte, thirdNat⟩ := exists_toNat (n := v / 64 % 0x40 + 0x80) (by omega)
  obtain ⟨second, secondByte, secondNat⟩ := exists_toNat (n := v / 4096 % 0x40 + 0x80) (by omega)
  have tails (b : UInt8) (w : Nat) (nat : b.toNat = w % 0x40 + 0x80) : isTail b = true :=
    isTail_iff.mpr (by omega)
  simp only [← tailByte, ← thirdByte, ← secondByte]
  split
  · obtain ⟨lead, leadByte, leadNat⟩ := exists_toNat (n := v) (by omega)
    refine ⟨lead, [], by rw [leadByte], ?_⟩
    rw [List.nil_append, step_one (by omega), leadNat, char]
  · split
    · obtain ⟨lead, leadByte, leadNat⟩ := exists_toNat (n := v / 64 % 0x20 + 0xC0) (by omega)
      refine ⟨lead, [tail], by rw [leadByte], ?_⟩
      have value : (lead.toNat - 0xC0) * 64 + tailBits tail = v := by unfold tailBits; omega
      have seconds : Seconds lead.toNat tail.toNat := by unfold Seconds; omega
      have read := step_two (by omega) (by omega) seconds rest
      rwa [value, char] at read
    · split
      · obtain ⟨lead, leadByte, leadNat⟩ := exists_toNat (n := v / 4096 % 0x10 + 0xE0) (by omega)
        refine ⟨lead, [third, tail], by rw [leadByte], ?_⟩
        have value : (lead.toNat - 0xE0) * 4096 + tailBits third * 64 + tailBits tail = v := by
          unfold tailBits
          omega
        have seconds : Seconds lead.toNat third.toNat := by unfold Seconds; omega
        have read := step_three (by omega) (by omega) seconds (tails tail _ tailNat) rest
        rwa [value, char] at read
      · obtain ⟨lead, leadByte, leadNat⟩ := exists_toNat (n := v / 262144 % 0x08 + 0xF0) (by omega)
        refine ⟨lead, [second, third, tail], by rw [leadByte], ?_⟩
        have value : (lead.toNat - 0xF0) * 262144 + tailBits second * 4096 + tailBits third * 64 +
            tailBits tail = v := by
          unfold tailBits
          omega
        have seconds : Seconds lead.toNat second.toNat := by unfold Seconds; omega
        have read := step_four (by omega) (by omega) seconds (tails third _ thirdNat)
          (tails tail _ tailNat) rest
        rwa [value, char] at read

/-- No byte below `0x80` belongs to a longer character. -/
theorem ascii_of_mem {c : Char} {b : UInt8} (member : b ∈ String.utf8EncodeChar c)
    (ascii : b.toNat < 0x80) : c.toNat = b.toNat := by
  unfold String.utf8EncodeChar at member
  change c.val.toNat = _
  generalize c.val.toNat = v at member ⊢
  dsimp only at member
  split at member
  · rw [List.mem_singleton] at member
    rw [member, UInt8.toNat_ofNat']
    omega
  · split at member
    · simp only [List.mem_cons, List.not_mem_nil, or_false] at member
      rcases member with rfl | rfl <;> rw [UInt8.toNat_ofNat'] at ascii <;> omega
    · split at member
      · simp only [List.mem_cons, List.not_mem_nil, or_false] at member
        rcases member with rfl | rfl | rfl <;> rw [UInt8.toNat_ofNat'] at ascii <;> omega
      · simp only [List.mem_cons, List.not_mem_nil, or_false] at member
        rcases member with rfl | rfl | rfl | rfl <;> rw [UInt8.toNat_ofNat'] at ascii <;> omega

theorem encode_append (left right : String) : encode (left ++ right) = encode left ++ encode right := by
  rw [encode, String.toList_append, List.flatMap_append]
  rfl

theorem encode_ofList (chars : List Char) :
    encode (String.ofList chars) = chars.flatMap String.utf8EncodeChar := by
  rw [encode, String.toList_ofList]

theorem characters_encode (chars : List Char) (rest : Bytes) :
    characters (chars.flatMap String.utf8EncodeChar ++ rest) = chars.map some ++ characters rest := by
  induction chars with
  | nil => rfl
  | cons c chars ih =>
      obtain ⟨lead, more, bytes, read⟩ := exists_step c (chars.flatMap String.utf8EncodeChar ++ rest)
      rw [List.flatMap_cons, List.append_assoc, bytes, List.cons_append, characters, read, ih]
      rfl

theorem decodeLossy_encode (text : String) : decodeLossy (encode text) = text := by
  have read := characters_encode text.toList []
  rw [List.append_nil] at read
  rw [decodeLossy, encode, read]
  simp [characters, Function.comp_def]

theorem seconds_of_within (within : (secondRange lead).1 ≤ second ∧ second ≤ (secondRange lead).2) :
    Seconds lead.toNat second.toNat := by
  simp only [secondRange, beq_iff_eq, ← UInt8.toNat_inj, UInt8.le_iff_toNat_le, UInt8.reduceToNat] at within
  unfold Seconds
  split_ifs at within <;> simp only [UInt8.reduceToNat] at within <;> omega

theorem ofNat_of_toNat {n : Nat} {b : UInt8} (same : n = b.toNat) : UInt8.ofNat n = b := by
  rw [same, UInt8.ofNat_toNat]

/-- The bytes of a character by its number. -/
theorem encodeChar_ofNat {v : Nat} (valid : v < 0xD800 ∨ 0xDFFF < v ∧ v < 0x110000) :
    String.utf8EncodeChar (Char.ofNat v) =
      if v ≤ 0x7F then [.ofNat v]
      else if v ≤ 0x7FF then [.ofNat (v / 64 % 0x20 + 0xC0), .ofNat (v % 0x40 + 0x80)]
      else if v ≤ 0xFFFF then
        [.ofNat (v / 4096 % 0x10 + 0xE0), .ofNat (v / 64 % 0x40 + 0x80), .ofNat (v % 0x40 + 0x80)]
      else
        [.ofNat (v / 262144 % 0x08 + 0xF0), .ofNat (v / 4096 % 0x40 + 0x80), .ofNat (v / 64 % 0x40 + 0x80),
          .ofNat (v % 0x40 + 0x80)] := by
  have value : (Char.ofNat v).val.toNat = v := by
    rw [Char.ofNat, dif_pos valid]
    rfl
  unfold String.utf8EncodeChar
  rw [value]

theorem encodeChar_one (ascii : lead.toNat < 0x80) : String.utf8EncodeChar (Char.ofNat lead.toNat) = [lead] := by
  rw [encodeChar_ofNat (by omega), if_pos (by omega), ofNat_of_toNat rfl]

theorem encodeChar_two {v : Nat} (value : v = (lead.toNat - 0xC0) * 64 + tailBits second)
    (least : 0xC2 ≤ lead.toNat) (most : lead.toNat < 0xE0) (seconds : Seconds lead.toNat second.toNat) :
    String.utf8EncodeChar (Char.ofNat v) = [lead, second] := by
  unfold tailBits at value
  unfold Seconds at seconds
  rw [encodeChar_ofNat (by omega), if_neg (by omega), if_pos (by omega),
    @ofNat_of_toNat _ lead (by omega), @ofNat_of_toNat _ second (by omega)]

theorem encodeChar_three {v : Nat}
    (value : v = (lead.toNat - 0xE0) * 4096 + tailBits second * 64 + tailBits third)
    (least : 0xE0 ≤ lead.toNat) (most : lead.toNat < 0xF0) (seconds : Seconds lead.toNat second.toNat)
    (tail : isTail third = true) : String.utf8EncodeChar (Char.ofNat v) = [lead, second, third] := by
  unfold tailBits at value
  unfold Seconds at seconds
  rw [isTail_iff] at tail
  rw [encodeChar_ofNat (by omega), if_neg (by omega), if_neg (by omega), if_pos (by omega),
    @ofNat_of_toNat _ lead (by omega), @ofNat_of_toNat _ second (by omega),
    @ofNat_of_toNat _ third (by omega)]

theorem encodeChar_four {v : Nat}
    (value : v = (lead.toNat - 0xF0) * 262144 + tailBits second * 4096 + tailBits third * 64 + tailBits fourth)
    (least : 0xF0 ≤ lead.toNat) (most : lead.toNat ≤ 0xF4) (seconds : Seconds lead.toNat second.toNat)
    (tail : isTail third = true) (last : isTail fourth = true) :
    String.utf8EncodeChar (Char.ofNat v) = [lead, second, third, fourth] := by
  unfold tailBits at value
  unfold Seconds at seconds
  rw [isTail_iff] at tail last
  rw [encodeChar_ofNat (by omega), if_neg (by omega), if_neg (by omega), if_neg (by omega),
    @ofNat_of_toNat _ lead (by omega), @ofNat_of_toNat _ second (by omega),
    @ofNat_of_toNat _ third (by omega), @ofNat_of_toNat _ fourth (by omega)]

/-- A character is written as the bytes that it was read from. -/
theorem encodeChar_of_step {rest left : Bytes} {c : Char} (read : step lead rest = (some c, left)) :
    String.utf8EncodeChar c ++ left = lead :: rest := by
  unfold step at read
  simp only [UInt8.lt_iff_toNat_lt, UInt8.reduceToNat] at read
  split at read
  · rw [Prod.mk.injEq, Option.some.injEq] at read
    rw [← read.1, ← read.2, encodeChar_one ‹_›]
    rfl
  split at read
  · cases read
  rename_i leads
  simp only [not_or, Bool.or_eq_true, decide_eq_true_eq] at leads
  cases rest with
  | nil => cases read
  | cons second rest =>
      simp only at read
      split at read
      · cases read
      rename_i within
      simp only [Bool.not_eq_true', Bool.not_eq_false, Bool.and_eq_true, decide_eq_true_eq] at within
      have seconds := seconds_of_within within
      split at read
      · rw [Prod.mk.injEq, Option.some.injEq] at read
        rw [← read.1, ← read.2, encodeChar_two rfl (by omega) (by omega) seconds]
        rfl
      cases rest with
      | nil => cases read
      | cons third rest =>
          simp only at read
          split at read
          · cases read
          rename_i tail
          simp only [Bool.not_eq_true', Bool.not_eq_false] at tail
          split at read
          · rw [Prod.mk.injEq, Option.some.injEq] at read
            rw [← read.1, ← read.2, encodeChar_three rfl (by omega) (by omega) seconds tail]
            rfl
          cases rest with
          | nil => cases read
          | cons fourth rest =>
              simp only at read
              split at read
              · cases read
              rename_i last
              simp only [Bool.not_eq_true', Bool.not_eq_false] at last
              rw [Prod.mk.injEq, Option.some.injEq] at read
              rw [← read.1, ← read.2, encodeChar_four rfl (by omega) (by omega) seconds tail last]
              rfl

theorem encode_of_characters {bytes : Bytes} {chars : List Char}
    (read : characters bytes = chars.map some) : chars.flatMap String.utf8EncodeChar = bytes := by
  induction chars generalizing bytes with
  | nil =>
      cases bytes with
      | nil => rfl
      | cons lead rest => simp [characters] at read
  | cons c chars ih =>
      cases bytes with
      | nil => simp [characters] at read
      | cons lead rest =>
          rw [characters, List.map_cons, List.cons.injEq] at read
          rw [List.flatMap_cons, ih read.2]
          exact encodeChar_of_step (Prod.ext read.1 rfl)

/-- A text without a gap consists of its characters. -/
theorem eq_map_some_of_mapM {read : List (Option Char)} {chars : List Char}
    (whole : read.mapM id = some chars) : read = chars.map some := by
  induction read generalizing chars with
  | nil =>
      cases whole
      rfl
  | cons first rest ih =>
      cases first with
      | none => cases whole
      | some c =>
          simp only [List.mapM_cons, id, Option.bind_eq_bind, Option.bind_some, Option.bind_eq_some_iff,
            Option.pure_def, Option.some.injEq] at whole
          obtain ⟨others, read, rfl⟩ := whole
          rw [ih read, List.map_cons]

/-- A text is written as the bytes that it was read from. -/
theorem encode_of_decode? {bytes : Bytes} {text : String} (decoded : decode? bytes = some text) :
    encode text = bytes := by
  obtain ⟨chars, read, rfl⟩ := Option.map_eq_some_iff.mp decoded
  rw [encode_ofList]
  exact encode_of_characters (eq_map_some_of_mapM read)

theorem decode?_encode (text : String) : decode? (encode text) = some text := by
  have read := characters_encode text.toList []
  have whole (chars : List Char) : (chars.map some).mapM id = some chars := by
    induction chars with
    | nil => rfl
    | cons c chars ih => simp [ih]
  rw [List.append_nil, characters, List.append_nil] at read
  rw [decode?, encode, read, whole, Option.map_some, String.ofList_toList]

theorem decodeLossy_of_decode? {bytes : Bytes} {text : String} (decoded : decode? bytes = some text) :
    decodeLossy bytes = text := by
  rw [← encode_of_decode? decoded, decodeLossy_encode]

end StaticSite.Text.Utf8
