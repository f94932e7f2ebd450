import UriRouting.Charset.Basic

/-! # Pieces of encoded text

Decoding cuts bytes into pieces from left to right. A piece is a character or a run of bytes that
stands for none; what follows a run is read afresh. -/

set_option autoImplicit false

namespace UriRouting.Charset

/-- `extra` counts the bytes of the piece behind its first. -/
inductive Piece where
  | char (c : Char) (extra : Nat)
  | bad (reason : DecodeReason) (extra : Nat)
deriving DecidableEq, Repr

namespace Piece

def extra : Piece → Nat
  | char _ extra => extra
  | bad _ extra => extra

def charOrReplacement : Piece → Char
  | char c _ => c
  | bad _ _ => '\uFFFD'

end Piece

abbrev PieceReader := UInt8 → List UInt8 → Piece

/-- The pieces behind `skip` bytes, each with its first byte. -/
def piecesFrom (next : PieceReader) : Nat → List UInt8 → List (UInt8 × Piece)
  | _, [] => []
  | skip + 1, _ :: rest => piecesFrom next skip rest
  | 0, b :: rest => (b, next b rest) :: piecesFrom next (next b rest).extra rest

def pieces (next : PieceReader) (bytes : List UInt8) : List (UInt8 × Piece) := piecesFrom next 0 bytes

theorem piecesFrom_eq_drop (next : PieceReader) (skip : Nat) (bytes : List UInt8) :
    piecesFrom next skip bytes = pieces next (bytes.drop skip) := by
  induction bytes generalizing skip with
  | nil => cases skip <;> rfl
  | cons b rest ih =>
    cases skip with
    | zero => rfl
    | succ skip => exact ih skip

theorem pieces_cons (next : PieceReader) (b : UInt8) (rest : List UInt8) :
    pieces next (b :: rest) =
      (b, next b rest) :: pieces next (rest.drop (next b rest).extra) := by
  rw [← piecesFrom_eq_drop]
  rfl

def strictText (codec : String) (start : Nat) : List (UInt8 × Piece) → Except Error (List Char)
  | [] => pure []
  | (_, .char c extra) :: rest => do
    let cs ← strictText codec (start + extra + 1) rest
    pure (c :: cs)
  | (b, .bad reason extra) :: _ => throw (.decode codec start b (extra + 1) reason)

def lenientText (ps : List (UInt8 × Piece)) : List Char := ps.map (·.2.charOrReplacement)

theorem lenientText_of_strictText {codec : String} {start : Nat} {ps : List (UInt8 × Piece)}
    {cs : List Char} (h : strictText codec start ps = .ok cs) : lenientText ps = cs := by
  induction ps generalizing start cs with
  | nil => cases h; rfl
  | cons p ps ih =>
    obtain ⟨b, piece⟩ := p
    cases piece with
    | bad => cases h
    | char c extra =>
      rw [strictText] at h
      cases hs : strictText codec (start + extra + 1) ps with
      | error => rw [hs] at h; cases h
      | ok rest =>
        rw [hs] at h
        cases h
        simp [lenientText, Piece.charOrReplacement, ← ih hs]

end UriRouting.Charset
