import LiveDoc.Text.Literal

/-!
# Character encodings

Bytes are read as UTF-8, UTF-16, UTF-32, ASCII or one of three single-byte encodings. A reading that
fails says which bytes are at fault and why.
-/

namespace LiveDoc

/-- The encodings that are known. -/
inductive Encoding where
  | utf8
  | utf8Signed
  | latin1
  | ascii
  | utf16
  | utf16Little
  | utf16Big
  | utf32
  | utf32Little
  | utf32Big
  | windows1252
  | latin9
deriving DecidableEq, Repr

/-- Why bytes do not decode. -/
inductive DecodeReason where
  | invalidStart
  | invalidContinuation
  | unexpectedEnd
  | notAscii
  | truncated
  | loneSurrogate
  | brokenPair
  | surrogate
  | outOfRange
  | undefined
deriving DecidableEq, Repr

/-- The bytes from `first` to before `stop` do not decode; `byte` is the first of them. -/
structure DecodeFault where
  encoding : Encoding
  first : Nat
  stop : Nat
  byte : UInt8
  reason : DecodeReason
deriving DecidableEq, Repr

namespace Encoding

/-- The name under which an encoding reports faults. -/
def name : Encoding → String
  | .utf8 => "utf-8"
  | .utf8Signed => "utf-8"
  | .latin1 => "latin-1"
  | .ascii => "ascii"
  | .utf16 => "utf-16"
  | .utf16Little => "utf-16-le"
  | .utf16Big => "utf-16-be"
  | .utf32 => "utf-32"
  | .utf32Little => "utf-32-le"
  | .utf32Big => "utf-32-be"
  | .windows1252 => "charmap"
  | .latin9 => "charmap"

/-- Whether a character stands in a normalized name. -/
def isNameChar (c : Char) : Bool := c.isAlphanum || c == '.'

/-- Replaces each run of other characters by one underscore; `joined` tells whether one is due and
`started` whether anything has been written. -/
def normalizeFrom (started joined : Bool) : List Char → List Char
  | [] => []
  | c :: cs =>
    if isNameChar c then
      (if joined && started then ['_'] else []) ++ c.toLower :: normalizeFrom true false cs
    else normalizeFrom started true cs

/-- The names of an encoding, normalized. -/
def aliases : List (String × Encoding) :=
  [ ("utf_8", .utf8), ("utf8", .utf8), ("u8", .utf8), ("utf", .utf8), ("cp65001", .utf8),
    ("utf8_ucs2", .utf8), ("utf8_ucs4", .utf8), ("utf_8_sig", .utf8Signed),
    ("latin_1", .latin1), ("latin1", .latin1), ("latin", .latin1), ("l1", .latin1),
    ("iso_8859_1", .latin1), ("iso8859_1", .latin1), ("iso8859", .latin1), ("8859", .latin1),
    ("cp819", .latin1), ("ibm819", .latin1), ("csisolatin1", .latin1), ("iso_ir_100", .latin1),
    ("iso_8859_1_1987", .latin1),
    ("ascii", .ascii), ("us_ascii", .ascii), ("us", .ascii), ("646", .ascii), ("cp367", .ascii),
    ("ibm367", .ascii), ("csascii", .ascii), ("iso646_us", .ascii), ("iso_ir_6", .ascii),
    ("ansi_x3.4_1968", .ascii), ("ansi_x3_4_1968", .ascii), ("ansi_x3.4_1986", .ascii),
    ("iso_646.irv_1991", .ascii),
    ("utf_16", .utf16), ("utf16", .utf16), ("u16", .utf16),
    ("utf_16_le", .utf16Little), ("utf_16le", .utf16Little),
    ("unicodelittleunmarked", .utf16Little),
    ("utf_16_be", .utf16Big), ("utf_16be", .utf16Big), ("unicodebigunmarked", .utf16Big),
    ("utf_32", .utf32), ("utf32", .utf32), ("u32", .utf32),
    ("utf_32_le", .utf32Little), ("utf_32le", .utf32Little),
    ("utf_32_be", .utf32Big), ("utf_32be", .utf32Big),
    ("cp1252", .windows1252), ("1252", .windows1252), ("windows_1252", .windows1252),
    ("iso8859_15", .latin9), ("iso_8859_15", .latin9), ("latin_9", .latin9), ("latin9", .latin9),
    ("l9", .latin9) ]

/-- The encoding that a name stands for, case and punctuation aside. -/
def ofName? (name : String) : Option Encoding :=
  aliases.lookup (String.ofList (normalizeFrom false false name.toList))

/-- Whether a byte continues a multi-byte character. -/
def isTail (b : UInt8) : Bool := 0x80 ≤ b && b ≤ 0xBF

/-- Whether the second byte of a character may follow the first one: it excludes overlong forms,
surrogates and code points beyond the last one. -/
def followsLead (lead b : UInt8) : Bool :=
  isTail b && (lead != 0xE0 || 0xA0 ≤ b) && (lead != 0xED || b ≤ 0x9F) &&
    (lead != 0xF0 || 0x90 ≤ b) && (lead != 0xF4 || b ≤ 0x8F)

/-- How many bytes the character with a first byte has; 0 if none starts with it. -/
def leadLength (b : UInt8) : Nat :=
  if b < 0x80 then 1
  else if b < 0xC2 then 0
  else if b < 0xE0 then 2
  else if b < 0xF0 then 3
  else if b < 0xF5 then 4
  else 0

/-- The bits that a first byte contributes. -/
def leadBits (b : UInt8) : Nat :=
  if b < 0x80 then b.toNat
  else if b < 0xE0 then b.toNat % 32
  else if b < 0xF0 then b.toNat % 16
  else b.toNat % 8

/-- How many of the bytes after a first byte fit it, of those it needs. -/
def fitting (lead : UInt8) (need : Nat) (bs : List UInt8) : Nat :=
  match bs with
  | [] => 0
  | b :: rest =>
    if need = 0 then 0
    else if followsLead lead b then 1 + ((rest.take (need - 1)).takeWhile isTail).length
    else 0

/-- Reads UTF-8, `at_` being the position of the first byte. `fuel` bounds the number of characters.
-/
def readUtf8 : Nat → Nat → List UInt8 → Except DecodeFault (List Char)
  | 0, _, _ => .ok []
  | _, _, [] => .ok []
  | fuel + 1, at_, lead :: rest =>
    let size := leadLength lead
    if size = 0 then .error ⟨.utf8, at_, at_ + 1, lead, .invalidStart⟩
    else
      let fit := fitting lead (size - 1) rest
      if fit = size - 1 then
        let code := (rest.take fit).foldl (fun n b => n * 64 + b.toNat % 64) (leadBits lead)
        (readUtf8 fuel (at_ + size) (rest.drop fit)).map (Char.ofNat code :: ·)
      else if fit = rest.length then
        .error ⟨.utf8, at_, at_ + 1 + fit, lead, .unexpectedEnd⟩
      else .error ⟨.utf8, at_, at_ + 1 + fit, lead, .invalidContinuation⟩

/-- Reads single bytes below 128. -/
def readAscii : Nat → List UInt8 → Except DecodeFault (List Char)
  | _, [] => .ok []
  | at_, b :: rest =>
    if b < 128 then (readAscii (at_ + 1) rest).map (Char.ofNat b.toNat :: ·)
    else .error ⟨.ascii, at_, at_ + 1, b, .notAscii⟩

/-- The 16-bit unit of two bytes. -/
def unit (big : Bool) (a b : UInt8) : Nat :=
  if big then a.toNat * 256 + b.toNat else b.toNat * 256 + a.toNat

/-- Reads UTF-16 units in one byte order. -/
def readUtf16 (e : Encoding) (big : Bool) :
    Nat → Nat → List UInt8 → Except DecodeFault (List Char)
  | 0, _, _ => .ok []
  | _, _, [] => .ok []
  | _, at_, [a] => .error ⟨e, at_, at_ + 1, a, .truncated⟩
  | fuel + 1, at_, a :: b :: rest =>
    let u := unit big a b
    if u < 0xD800 ∨ 0xE000 ≤ u then (readUtf16 e big fuel (at_ + 2) rest).map (Char.ofNat u :: ·)
    else if 0xDC00 ≤ u then .error ⟨e, at_, at_ + 2, a, .loneSurrogate⟩
    else match rest with
      | c :: d :: more =>
        let v := unit big c d
        if 0xDC00 ≤ v ∧ v < 0xE000 then
          (readUtf16 e big fuel (at_ + 4) more).map
            (Char.ofNat (0x10000 + (u - 0xD800) * 1024 + (v - 0xDC00)) :: ·)
        else .error ⟨e, at_, at_ + 2, a, .brokenPair⟩
      | _ => .error ⟨e, at_, at_ + 2 + rest.length, a, .unexpectedEnd⟩

/-- Reads UTF-32 units in one byte order. -/
def readUtf32 (e : Encoding) (big : Bool) : Nat → List UInt8 → Except DecodeFault (List Char)
  | at_, a :: b :: c :: d :: rest =>
    let n := if big then unit big a b * 65536 + unit big c d
      else unit big c d * 65536 + unit big a b
    if 0x110000 ≤ n then .error ⟨e, at_, at_ + 4, a, .outOfRange⟩
    else if 0xD800 ≤ n ∧ n < 0xE000 then .error ⟨e, at_, at_ + 4, a, .surrogate⟩
    else (readUtf32 e big (at_ + 4) rest).map (Char.ofNat n :: ·)
  | _, [] => .ok []
  | at_, a :: rest => .error ⟨e, at_, at_ + 1 + rest.length, a, .truncated⟩

/-- The characters of the bytes from 128 to 159 in Windows-1252; bytes without one have code 0. -/
def windowsCodes : List Nat :=
  [ 0x20AC, 0, 0x201A, 0x0192, 0x201E, 0x2026, 0x2020, 0x2021,
    0x02C6, 0x2030, 0x0160, 0x2039, 0x0152, 0, 0x017D, 0,
    0, 0x2018, 0x2019, 0x201C, 0x201D, 0x2022, 0x2013, 0x2014,
    0x02DC, 0x2122, 0x0161, 0x203A, 0x0153, 0, 0x017E, 0x0178 ]

/-- The character of a byte in Windows-1252. -/
def windowsChar? (b : UInt8) : Option Char :=
  if b < 128 || 160 ≤ b then some (Char.ofNat b.toNat)
  else match windowsCodes.getD (b.toNat - 128) 0 with
    | 0 => none
    | n => some (Char.ofNat n)

/-- The bytes at which Latin-9 differs from Latin-1, with their characters. -/
def latin9Codes : List (Nat × Nat) :=
  [ (0xA4, 0x20AC), (0xA6, 0x0160), (0xA8, 0x0161), (0xB4, 0x017D),
    (0xB8, 0x017E), (0xBC, 0x0152), (0xBD, 0x0153), (0xBE, 0x0178) ]

/-- The character of a byte in Latin-9. -/
def latin9Char? (b : UInt8) : Option Char :=
  some (Char.ofNat ((latin9Codes.lookup b.toNat).getD b.toNat))

/-- Reads single bytes by a table. -/
def readBytes (e : Encoding) (char? : UInt8 → Option Char) :
    Nat → List UInt8 → Except DecodeFault (List Char)
  | _, [] => .ok []
  | at_, b :: rest =>
    match char? b with
    | some c => (readBytes e char? (at_ + 1) rest).map (c :: ·)
    | none => .error ⟨e, at_, at_ + 1, b, .undefined⟩

/-- The text that bytes encode. -/
def decode (e : Encoding) (bs : List UInt8) : Except DecodeFault String :=
  String.ofList <$> match e with
    | .utf8 => readUtf8 bs.length 0 bs
    | .utf8Signed =>
      match bs with
      | 0xEF :: 0xBB :: 0xBF :: rest => readUtf8 rest.length 0 rest
      | _ => readUtf8 bs.length 0 bs
    | .latin1 => .ok (bs.map fun b => Char.ofNat b.toNat)
    | .ascii => readAscii 0 bs
    | .utf16Little => readUtf16 e false bs.length 0 bs
    | .utf16Big => readUtf16 e true bs.length 0 bs
    | .utf16 =>
      match bs with
      | 0xFF :: 0xFE :: rest => readUtf16 .utf16Little false rest.length 2 rest
      | 0xFE :: 0xFF :: rest => readUtf16 .utf16Big true rest.length 2 rest
      | _ => readUtf16 .utf16Little false bs.length 0 bs
    | .utf32Little => readUtf32 e false 0 bs
    | .utf32Big => readUtf32 e true 0 bs
    | .utf32 =>
      match bs with
      | 0xFF :: 0xFE :: 0 :: 0 :: rest => readUtf32 .utf32Little false 4 rest
      | 0 :: 0 :: 0xFE :: 0xFF :: rest => readUtf32 .utf32Big true 4 rest
      | _ => readUtf32 .utf32Little false 0 bs
    | .windows1252 => readBytes e windowsChar? 0 bs
    | .latin9 => readBytes e latin9Char? 0 bs

end Encoding

namespace DecodeFault

/-- The reason in words. -/
def reasonText (f : DecodeFault) : String :=
  match f.reason with
  | .invalidStart => "invalid start byte"
  | .invalidContinuation => "invalid continuation byte"
  | .unexpectedEnd => "unexpected end of data"
  | .notAscii => "ordinal not in range(128)"
  | .truncated => "truncated data"
  | .loneSurrogate => "illegal encoding"
  | .brokenPair => "illegal UTF-16 surrogate"
  | .surrogate => "code point in surrogate code point range(0xd800, 0xe000)"
  | .outOfRange => "code point not in range(0x110000)"
  | .undefined => "character maps to <undefined>"

/-- The fault in words. -/
def message (f : DecodeFault) : String :=
  "'" ++ f.encoding.name ++ "' codec can't decode " ++
    (if f.stop = f.first + 1 then
      "byte 0x" ++ String.ofList (Text.hex 2 f.byte.toNat) ++ " in position " ++ toString f.first
    else "bytes in position " ++ toString f.first ++ "-" ++ toString (f.stop - 1)) ++
    ": " ++ f.reasonText

end DecodeFault

end LiveDoc
