import TableTypes.Text.Basic

/-!
# Encodings

Reading bytes as text.  UTF-8 is read strictly: the shortest form only, no surrogates, nothing
above U+10FFFF; a fault names what is wrong with the first sequence that cannot be read.
-/

namespace TableTypes.Text

/-- The encodings of a text file. -/
inductive Encoding where
  | utf8
  /-- UTF-8 after an optional byte order mark. -/
  | utf8Marked
  | latin1
  | ascii
  deriving DecidableEq, Repr

/-- The name of an encoding. -/
def Encoding.name : Encoding → Text
  | utf8 => "utf-8".toList
  | utf8Marked => "utf-8-sig".toList
  | latin1 => "latin-1".toList
  | ascii => "ascii".toList

/-- Why bytes cannot be read as text. -/
inductive DecodeFault where
  | invalidStart
  | invalidContinuation
  | unexpectedEnd
  | notAscii
  deriving DecidableEq, Repr

/-- The wording of a fault. -/
def DecodeFault.message : DecodeFault → Text
  | .invalidStart => "invalid start byte".toList
  | .invalidContinuation => "invalid continuation byte".toList
  | .unexpectedEnd => "unexpected end of data".toList
  | .notAscii => "ordinal not in range(128)".toList

/-- Whether `b` continues a sequence of several bytes. -/
def isContinuation (b : UInt8) : Bool :=
  0x80 ≤ b && b ≤ 0xbf

/-- Whether `b` may be the second byte of the sequence that `lead` begins: this is where overlong
forms, surrogates and values above U+10FFFF are refused. -/
def isSecond (lead b : UInt8) : Bool :=
  isContinuation b &&
    (if lead = 0xe0 then 0xa0 ≤ b
      else if lead = 0xed then b ≤ 0x9f
      else if lead = 0xf0 then 0x90 ≤ b
      else if lead = 0xf4 then b ≤ 0x8f
      else true)

/-- The six low bits of a continuation byte. -/
def lowBits (b : UInt8) : Nat :=
  b.toNat % 64

/-- The text that bytes spell in UTF-8. -/
def decodeUtf8 : List UInt8 → Except DecodeFault Text
  | [] => .ok []
  | a :: bs =>
    if a < 0x80 then (decodeUtf8 bs).map (Char.ofNat a.toNat :: ·)
    else if a < 0xc2 || 0xf4 < a then .error .invalidStart
    else
      match bs with
      | [] => .error .unexpectedEnd
      | b :: bs =>
        if !isSecond a b then .error .invalidContinuation
        else if a < 0xe0 then
          (decodeUtf8 bs).map (Char.ofNat (a.toNat % 32 * 64 + lowBits b) :: ·)
        else
          match bs with
          | [] => .error .unexpectedEnd
          | c :: bs =>
            if !isContinuation c then .error .invalidContinuation
            else if a < 0xf0 then
              (decodeUtf8 bs).map
                (Char.ofNat (a.toNat % 16 * 4096 + lowBits b * 64 + lowBits c) :: ·)
            else
              match bs with
              | [] => .error .unexpectedEnd
              | d :: bs =>
                if !isContinuation d then .error .invalidContinuation
                else
                  (decodeUtf8 bs).map
                    (Char.ofNat
                      (a.toNat % 8 * 262144 + lowBits b * 4096 + lowBits c * 64 + lowBits d) :: ·)

/-- The bytes without a byte order mark in front.  A mark that is cut off by the end of the bytes
counts as a mark. -/
def dropMark : List UInt8 → List UInt8
  | 0xef :: 0xbb :: 0xbf :: bs => bs
  | [0xef, 0xbb] => []
  | [0xef] => []
  | bs => bs

/-- The text that bytes spell in an encoding. -/
def decode : Encoding → List UInt8 → Except DecodeFault Text
  | .utf8, bs => decodeUtf8 bs
  | .utf8Marked, bs => decodeUtf8 (dropMark bs)
  | .latin1, bs => .ok (bs.map fun b => Char.ofNat b.toNat)
  | .ascii, bs =>
    if bs.all (· < 0x80) then .ok (bs.map fun b => Char.ofNat b.toNat) else .error .notAscii

/-- The number of bytes of a text in UTF-8. -/
def utf8Size (t : Text) : Nat :=
  t.foldl (fun n c => n + c.utf8Size) 0

end TableTypes.Text
