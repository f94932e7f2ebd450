import UriRouting.Charset.Utf8
import UriRouting.Charset.Utf16
import UriRouting.Charset.SingleByte

/-! # Encoding and decoding

`encode` and `decode` stop at the first character or byte that cannot be handled; `decodeLenient` puts
a replacement character for each run of bad bytes. -/

set_option autoImplicit false

namespace UriRouting.Charset

def codecName : Charset → String
  | utf8 | signedUtf8 => "utf-8"
  | latin1 => "latin-1"
  | ascii => "ascii"
  | windows1252 => "charmap"
  | utf16 | utf16Little => "utf-16-le"
  | utf16Big => "utf-16-be"
  | utf32 | utf32Little => "utf-32-le"
  | utf32Big => "utf-32-be"

def signature : Charset → List UInt8
  | signedUtf8 => [0xEF, 0xBB, 0xBF]
  | utf16 => [0xFF, 0xFE]
  | utf32 => [0xFF, 0xFE, 0, 0]
  | _ => []

def encodeChar? : Charset → Char → Option (List UInt8)
  | utf8, c | signedUtf8, c => some (Utf8.encodeChar c)
  | latin1, c => (SingleByte.byteBelow? 0x100 c).map ([·])
  | ascii, c => (SingleByte.byteBelow? 0x80 c).map ([·])
  | windows1252, c => (SingleByte.windowsByte? c).map ([·])
  | utf16, c | utf16Little, c => some (Utf16.encodeChar .little c)
  | utf16Big, c => some (Utf16.encodeChar .big c)
  | utf32, c | utf32Little, c => some (Utf32.encodeChar .little c)
  | utf32Big, c => some (Utf32.encodeChar .big c)

def encodeReason : Charset → EncodeReason
  | latin1 => .outOfRange 0x100
  | ascii => .outOfRange 0x80
  | _ => .undefined

/-- The bytes of a text behind `start` characters. An error names the whole run that cannot be encoded. -/
def encodeFrom (cs : Charset) (start : Nat) : List Char → Except Error (List UInt8)
  | [] => pure []
  | c :: rest =>
    match cs.encodeChar? c with
    | some bytes => do
      let more ← encodeFrom cs (start + 1) rest
      pure (bytes ++ more)
    | none =>
      let count := ((c :: rest).takeWhile fun c => (cs.encodeChar? c).isNone).length
      throw (.encode cs.codecName start c count cs.encodeReason)

def encode (cs : Charset) (s : List Char) : Except Error (List UInt8) := do
  let bytes ← cs.encodeFrom 0 s
  pure (cs.signature ++ bytes)

/-- How to read bytes: the name for errors, the bytes to skip, whether they count in places, and the
reader of what is left. -/
structure Decoder where
  codec : String
  skipped : Nat
  start : Nat
  next : PieceReader

def decoder (cs : Charset) (bytes : List UInt8) : Decoder :=
  match cs with
  | utf8 => ⟨"utf-8", 0, 0, Utf8.next⟩
  | signedUtf8 =>
    ⟨"utf-8", if [0xEF, 0xBB, 0xBF].isPrefixOf bytes then 3 else 0, 0, Utf8.next⟩
  | latin1 => ⟨"latin-1", 0, 0, SingleByte.nextBelow 0x100⟩
  | ascii => ⟨"ascii", 0, 0, SingleByte.nextBelow 0x80⟩
  | windows1252 => ⟨"charmap", 0, 0, SingleByte.nextWindows⟩
  | utf16 =>
    if [0xFF, 0xFE].isPrefixOf bytes then ⟨"utf-16-le", 2, 2, Utf16.next .little⟩
    else if [0xFE, 0xFF].isPrefixOf bytes then ⟨"utf-16-be", 2, 2, Utf16.next .big⟩
    else ⟨"utf-16-le", 0, 0, Utf16.next .little⟩
  | utf16Little => ⟨"utf-16-le", 0, 0, Utf16.next .little⟩
  | utf16Big => ⟨"utf-16-be", 0, 0, Utf16.next .big⟩
  | utf32 =>
    if [0xFF, 0xFE, 0, 0].isPrefixOf bytes then ⟨"utf-32-le", 4, 4, Utf32.next .little⟩
    else if [0, 0, 0xFE, 0xFF].isPrefixOf bytes then ⟨"utf-32-be", 4, 4, Utf32.next .big⟩
    else ⟨"utf-32-le", 0, 0, Utf32.next .little⟩
  | utf32Little => ⟨"utf-32-le", 0, 0, Utf32.next .little⟩
  | utf32Big => ⟨"utf-32-be", 0, 0, Utf32.next .big⟩

def decode (cs : Charset) (bytes : List UInt8) : Except Error (List Char) :=
  let d := cs.decoder bytes
  strictText d.codec d.start (pieces d.next (bytes.drop d.skipped))

def decodeLenient (cs : Charset) (bytes : List UInt8) : List Char :=
  let d := cs.decoder bytes
  lenientText (pieces d.next (bytes.drop d.skipped))

theorem decodeLenient_of_decode {cs : Charset} {bytes : List UInt8} {s : List Char}
    (h : cs.decode bytes = .ok s) : cs.decodeLenient bytes = s :=
  lenientText_of_strictText h

end UriRouting.Charset
