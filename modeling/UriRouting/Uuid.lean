import UriRouting.Text.Digits

/-! # Universally unique identifiers

A number below 2¹²⁸, written as thirty-two hexadecimal digits in groups. Reading is generous about
what stands around and between the digits. -/

set_option autoImplicit false

namespace UriRouting

structure Uuid where
  value : Nat
  value_lt : value < Nat.pow 2 128
deriving DecidableEq, Repr

namespace Uuid

def hex (u : Uuid) : List Char := Text.padded 16 32 u.value

def text (u : Uuid) : List Char :=
  let digits := u.hex
  digits.take 8 ++ '-' :: (digits.drop 8).take 4 ++ '-' :: (digits.drop 12).take 4 ++
    '-' :: (digits.drop 16).take 4 ++ '-' :: digits.drop 20

/-- Removes a text wherever it stands, from left to right; `skip` characters are still to be dropped. -/
def without (mark : List Char) : Nat → List Char → List Char
  | _, [] => []
  | skip + 1, _ :: rest => without mark skip rest
  | 0, c :: rest =>
    if mark.isPrefixOf (c :: rest) then without mark (mark.length - 1) rest
    else c :: without mark 0 rest

def trimBraces (s : List Char) : List Char :=
  let isBrace (c : Char) := c == '{' || c == '}'
  ((s.dropWhile isBrace).reverse.dropWhile isBrace).reverse

/-- Reads thirty-two digits between which hyphens do not count. A name space in front, braces around
and whatever an integer in base sixteen may hold are accepted. -/
def ofText? (s : List Char) : Option Uuid :=
  let s := without "uuid:".toList 0 (without "urn:".toList 0 s)
  let digits := (trimBraces s).filter (· != '-')
  if digits.length = 32 then
    match Text.readInteger? 16 digits with
    | some (.ofNat n) => if h : n < Nat.pow 2 128 then some ⟨n, h⟩ else none
    | _ => none
  else none

end Uuid

end UriRouting
