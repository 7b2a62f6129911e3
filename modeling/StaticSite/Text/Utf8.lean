/-!
Reading and writing UTF-8. Bytes that belong to no character are either refused or stand for
U+FFFD, one for each longest run that begins like a character.
-/

namespace StaticSite

/-- The content of a file. -/
abbrev Bytes := List UInt8

namespace Text.Utf8

/-- The bytes of a text. -/
def encode (text : String) : Bytes := text.toList.flatMap String.utf8EncodeChar

/-- Whether a byte continues a character. -/
def isTail (b : UInt8) : Bool := 0x80 ≤ b && b ≤ 0xBF

/-- The second bytes that may follow a lead byte of a longer character. -/
def secondRange (lead : UInt8) : UInt8 × UInt8 :=
  if lead == 0xE0 then (0xA0, 0xBF)
  else if lead == 0xED then (0x80, 0x9F)
  else if lead == 0xF0 then (0x90, 0xBF)
  else if lead == 0xF4 then (0x80, 0x8F)
  else (0x80, 0xBF)

/-- The bits that a continuation byte adds. -/
def tailBits (b : UInt8) : Nat := b.toNat - 0x80

/-- The first character of a nonempty text, or nothing if its bytes are no character, with the
bytes after it. -/
def step (lead : UInt8) (rest : Bytes) : Option Char × Bytes :=
  if lead < 0x80 then (some (Char.ofNat lead.toNat), rest)
  else if lead < 0xC2 || 0xF4 < lead then (none, rest)
  else
    match rest with
    | [] => (none, [])
    | second :: rest₂ =>
      let range := secondRange lead
      if !(range.1 ≤ second && second ≤ range.2) then (none, rest)
      else if lead < 0xE0 then
        (some (Char.ofNat ((lead.toNat - 0xC0) * 64 + tailBits second)), rest₂)
      else
        match rest₂ with
        | [] => (none, [])
        | third :: rest₃ =>
          if !isTail third then (none, rest₂)
          else if lead < 0xF0 then
            (some (Char.ofNat
              ((lead.toNat - 0xE0) * 4096 + tailBits second * 64 + tailBits third)), rest₃)
          else
            match rest₃ with
            | [] => (none, [])
            | fourth :: rest₄ =>
              if !isTail fourth then (none, rest₃)
              else
                (some (Char.ofNat ((lead.toNat - 0xF0) * 262144 + tailBits second * 4096 +
                  tailBits third * 64 + tailBits fourth)), rest₄)

theorem step_rest_le (lead : UInt8) (rest : Bytes) :
    (step lead rest).2.length ≤ rest.length := by
  match rest with
  | [] => grind [step]
  | [_] => grind [step]
  | [_, _] => grind [step]
  | _ :: _ :: _ :: _ => grind [step]

/-- The characters of a byte text, `none` where bytes are no character. -/
def characters : Bytes → List (Option Char)
  | [] => []
  | lead :: rest => (step lead rest).1 :: characters (step lead rest).2
termination_by bytes => bytes.length
decreasing_by
  have := step_rest_le lead rest
  simp only [List.length_cons]
  omega

/-- The text of the bytes, if they are UTF-8 throughout. -/
def decode? (bytes : Bytes) : Option String := (characters bytes).mapM id |>.map String.ofList

/-- The text of the bytes, with U+FFFD for each run that is no character. -/
def decodeLossy (bytes : Bytes) : String :=
  String.ofList ((characters bytes).map fun c => c.getD '\uFFFD')

end Text.Utf8

end StaticSite
