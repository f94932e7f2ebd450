import UriRouting.Text.Quoted

/-! # Charsets

The charsets in which text is turned into bytes and back, their names, and what can go wrong. -/

set_option autoImplicit false

namespace UriRouting

inductive Charset where
  | utf8
  /-- UTF-8 behind a signature. -/
  | signedUtf8
  | latin1
  | ascii
  | windows1252
  /-- UTF-16 behind a byte order mark. -/
  | utf16
  | utf16Little
  | utf16Big
  /-- UTF-32 behind a byte order mark. -/
  | utf32
  | utf32Little
  | utf32Big
deriving DecidableEq, Repr

namespace Charset

/-- The first name of each charset, after `normalName`. -/
def names : List (String × Charset) :=
  [("utf_8", utf8), ("utf_8_sig", signedUtf8), ("latin_1", latin1), ("ascii", ascii), ("cp1252", windows1252),
   ("utf_16", utf16), ("utf_16_le", utf16Little), ("utf_16_be", utf16Big),
   ("utf_32", utf32), ("utf_32_le", utf32Little), ("utf_32_be", utf32Big)]

/-- The other names. A low line in them may be a point as well. -/
def aliases : List (String × Charset) :=
  [("utf8", utf8), ("u8", utf8), ("utf", utf8), ("utf8_ucs2", utf8), ("utf8_ucs4", utf8), ("cp65001", utf8),
   ("latin1", latin1), ("latin", latin1), ("l1", latin1), ("8859", latin1), ("cp819", latin1),
   ("csisolatin1", latin1), ("ibm819", latin1), ("iso8859", latin1), ("iso8859_1", latin1),
   ("iso_8859_1", latin1), ("iso_8859_1_1987", latin1), ("iso_ir_100", latin1),
   ("us_ascii", ascii), ("us", ascii), ("646", ascii), ("ansi_x3_4_1968", ascii), ("ansi_x3.4_1968", ascii), ("ansi_x3.4_1986", ascii),
   ("cp367", ascii), ("csascii", ascii), ("ibm367", ascii), ("iso646_us", ascii), ("iso_646.irv_1991", ascii),
   ("iso_ir_6", ascii), ("windows_1252", windows1252), ("1252", windows1252),
   ("utf16", utf16), ("u16", utf16), ("utf_16le", utf16Little), ("unicodelittleunmarked", utf16Little),
   ("utf_16be", utf16Big), ("unicodebigunmarked", utf16Big),
   ("utf32", utf32), ("u32", utf32), ("utf_32le", utf32Little), ("utf_32be", utf32Big)]

/-- Lower case, with one low line for every run of other characters between letters, digits and dots. -/
def normalName (name : List Char) : List Char :=
  let (kept, _) := name.foldl
    (fun (kept, gap) c =>
      if c.isAlphanum || c == '.' then
        (c.toLower :: if gap && !kept.isEmpty then '_' :: kept else kept, false)
      else (kept, true))
    (([], false) : List Char × Bool)
  kept.reverse

/-- The charset of a name in any spelling. Charsets beside those above are taken for unknown, and a name
that holds the zero character is no name. -/
def ofName? (name : String) : Option Charset :=
  let normal := normalName name.toList
  if name.toList.contains '\x00' then none
  else
    ((names ++ aliases).lookup (String.ofList normal)).or
      (aliases.lookup (String.ofList (normal.map fun c => if c = '.' then '_' else c)))

inductive EncodeReason where
  /-- The code points from here on are out of range. -/
  | outOfRange (limit : Nat)
  | undefined
deriving DecidableEq, Repr

inductive DecodeReason where
  | invalidStart
  | invalidContinuation
  | unexpectedEnd
  | outOfRange (limit : Nat)
  | undefined
  | truncated
  | illegalEncoding
  | illegalSurrogate
  | surrogateCodePoint
  | codePointTooLarge
deriving DecidableEq, Repr

inductive Error where
  | unknown (name : String)
  /-- The name holds the zero character. -/
  | zeroInName
  /-- The name of the charset that stands for none and fails at every text. -/
  | undefined (name : String)
  /-- The characters from `start` on cannot be encoded. -/
  | encode (codec : String) (start : Nat) (first : Char) (count : Nat) (reason : EncodeReason)
  /-- The bytes from `start` on cannot be decoded. -/
  | decode (codec : String) (start : Nat) (first : UInt8) (count : Nat) (reason : DecodeReason)
deriving DecidableEq, Repr

namespace EncodeReason

def text : EncodeReason → String
  | outOfRange limit => "ordinal not in range(" ++ toString limit ++ ")"
  | undefined => "character maps to <undefined>"

end EncodeReason

namespace DecodeReason

def text : DecodeReason → String
  | invalidStart => "invalid start byte"
  | invalidContinuation => "invalid continuation byte"
  | unexpectedEnd => "unexpected end of data"
  | outOfRange limit => "ordinal not in range(" ++ toString limit ++ ")"
  | undefined => "character maps to <undefined>"
  | truncated => "truncated data"
  | illegalEncoding => "illegal encoding"
  | illegalSurrogate => "illegal UTF-16 surrogate"
  | surrogateCodePoint => "code point in surrogate code point range(0xd800, 0xe000)"
  | codePointTooLarge => "code point not in range(0x110000)"

end DecodeReason

namespace Error

def ofName (name : String) : Error :=
  if name.toList.contains '\x00' then zeroInName
  else if normalName name.toList = "undefined".toList then undefined name
  else unknown name

def place (one many : String) (start count : Nat) : String :=
  if count = 1 then one ++ " in position " ++ toString start
  else many ++ " in position " ++ toString start ++ "-" ++ toString (start + count - 1)

def message : Error → String
  | unknown name => "unknown encoding: " ++ name
  | zeroInName => "embedded null character"
  | undefined name =>
    "encoding with '" ++ name ++ "' codec failed (UnicodeError: undefined encoding)"
  | encode codec start first count reason =>
    "'" ++ codec ++ "' codec can't encode " ++
      place ("character '" ++ String.ofList (Text.escapeCode first.toNat) ++ "'") "characters"
        start count ++ ": " ++ reason.text
  | decode codec start first count reason =>
    "'" ++ codec ++ "' codec can't decode " ++
      place ("byte 0x" ++ String.ofList (Text.padded 16 2 first.toNat)) "bytes" start count ++
      ": " ++ reason.text

end Error

end Charset

end UriRouting
