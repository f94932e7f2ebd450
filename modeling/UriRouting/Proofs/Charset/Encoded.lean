import UriRouting.Charset.Codec
import UriRouting.Proofs.Outcome

/-! # Encoded text

Text is encoded character by character and read piece by piece. Where the piece at the front of what
a character is encoded to is that character, whatever stands behind it, decoding gives the text back. -/

set_option autoImplicit false

namespace UriRouting.Charset

/-- The bytes of text, without the signature that some charsets put in front of them. -/
inductive Encodes (cs : Charset) : List Char → List UInt8 → Prop where
  | nil : Encodes cs [] []
  | cons {c : Char} {front : List UInt8} {rest : List Char} {back : List UInt8}
      (hChar : cs.encodeChar? c = some front) (h : Encodes cs rest back) :
      Encodes cs (c :: rest) (front ++ back)

theorem encodeFrom_eq_ok_iff {cs : Charset} {start : Nat} {s : List Char} {bytes : List UInt8} :
    cs.encodeFrom start s = .ok bytes ↔ cs.Encodes s bytes := by
  induction s generalizing start bytes with
  | nil =>
    constructor
    · intro h
      cases h
      exact .nil
    · rintro (_ | _)
      rfl
  | cons c rest ih =>
    rw [encodeFrom]
    constructor
    · intro h
      split at h
      · rename_i front hChar
        obtain ⟨back, hRest, hPure⟩ := bind_eq_ok_iff.mp h
        cases hPure
        exact .cons hChar (ih.mp hRest)
      · cases h
    · rintro (_ | ⟨hChar, hRest⟩)
      rw [hChar]
      exact bind_eq_ok_iff.mpr ⟨_, ih.mpr hRest, rfl⟩

theorem encode_eq_ok_iff {cs : Charset} {s : List Char} {bytes : List UInt8} :
    cs.encode s = .ok bytes ↔ ∃ body, cs.Encodes s body ∧ bytes = cs.signature ++ body := by
  rw [encode, bind_eq_ok_iff]
  constructor
  · rintro ⟨body, hBody, hPure⟩
    cases hPure
    exact ⟨body, encodeFrom_eq_ok_iff.mp hBody, rfl⟩
  · rintro ⟨body, hBody, rfl⟩
    exact ⟨body, encodeFrom_eq_ok_iff.mpr hBody, rfl⟩

/-- Where every character can be encoded, every text can. -/
theorem exists_encode {cs : Charset} (h : ∀ c, ∃ front, cs.encodeChar? c = some front) (s : List Char) :
    ∃ bytes, cs.encode s = .ok bytes := by
  have hEncodes : ∃ body, cs.Encodes s body := by
    induction s with
    | nil => exact ⟨[], .nil⟩
    | cons c s ih =>
      obtain ⟨front, hChar⟩ := h c
      obtain ⟨back, hRest⟩ := ih
      exact ⟨_, .cons hChar hRest⟩
  obtain ⟨body, hBody⟩ := hEncodes
  exact ⟨_, encode_eq_ok_iff.mpr ⟨body, hBody, rfl⟩⟩

/-! ## Reading characters -/

theorem toNat_ofNat {n : Nat} (h : n.isValidChar) : (Char.ofNat n).toNat = n := by
  rw [Char.ofNat, dif_pos h]
  rfl

/-- Bytes that read as one character, whatever stands behind them. -/
def ReadsAs (next : PieceReader) (bytes : List UInt8) (c : Char) : Prop :=
  ∃ b rest, bytes = b :: rest ∧ ∀ more, next b (rest ++ more) = .char c rest.length

theorem ReadsAs.pieces_append {next : PieceReader} {front : List UInt8} {c : Char}
    (h : ReadsAs next front c) (back : List UInt8) :
    ∃ b, pieces next (front ++ back) = (b, .char c (front.length - 1)) :: pieces next back := by
  obtain ⟨b, rest, rfl, hNext⟩ := h
  refine ⟨b, ?_⟩
  rw [List.cons_append, pieces_cons, hNext, Piece.extra, List.drop_left, List.length_cons,
    Nat.add_sub_cancel]

theorem Encodes.strictText_pieces {cs : Charset} {next : PieceReader}
    (hNext : ∀ c front, cs.encodeChar? c = some front → ReadsAs next front c) {s : List Char}
    {bytes : List UInt8} (h : cs.Encodes s bytes) (codec : String) (start : Nat) :
    strictText codec start (pieces next bytes) = .ok s := by
  induction h generalizing start with
  | nil => rfl
  | cons hChar h ih =>
    obtain ⟨b, hPieces⟩ := (hNext _ _ hChar).pieces_append _
    rw [hPieces, strictText]
    exact bind_eq_ok_iff.mpr ⟨_, ih _, rfl⟩

section Utf8

theorem readTail_tail {bits taken owed low high n : Nat} (rest : List UInt8)
    (hLow : low ≤ 0x80 + n % 0x40) (hHigh : 0x80 + n % 0x40 ≤ high) :
    Utf8.readTail bits taken (owed + 1) low high (Utf8.tail n :: rest) =
      Utf8.readTail (bits * 0x40 + n % 0x40) (taken + 1) owed 0x80 0xBF rest := by
  have hByte : (Utf8.tail n).toNat = 0x80 + n % 0x40 := by
    rw [Utf8.tail, UInt8.toNat_ofNat']
    omega
  rw [Utf8.readTail, hByte, if_pos ⟨hLow, hHigh⟩, Nat.add_sub_cancel_left]

theorem next_lead {b bits count low high : Nat} (hByte : b < 0x100)
    (hLead : Utf8.lead? b = some ⟨bits, count, low, high⟩) (rest : List UInt8) :
    Utf8.next (UInt8.ofNat b) rest = Utf8.readTail bits 0 count low high rest := by
  have hNat : (UInt8.ofNat b).toNat = b := by
    rw [UInt8.toNat_ofNat']
    omega
  rw [Utf8.next, hNat, hLead]

theorem char_of_bits {c : Char} {bits taken : Nat} (h : bits = c.toNat) :
    Piece.char (Char.ofNat bits) taken = .char c taken := by
  rw [h, Char.ofNat_toNat]

theorem readsAs_utf8 (c : Char) : ReadsAs Utf8.next (Utf8.encodeChar c) c := by
  have hValid : c.toNat < 0xD800 ∨ 0xDFFF < c.toNat ∧ c.toNat < 0x110000 := c.valid
  rw [Utf8.encodeChar]
  generalize hCode : c.toNat = n at hValid
  split
  · rename_i hOne
    refine ⟨_, [], rfl, fun more => ?_⟩
    have hLead : Utf8.lead? n = some ⟨n, 0, 0, 0⟩ := if_pos hOne
    rw [next_lead (by omega) hLead]
    exact char_of_bits hCode.symm
  · split
    · rename_i hOne hTwo
      refine ⟨_, [Utf8.tail n], rfl, fun more => ?_⟩
      have hLead : Utf8.lead? (0xC0 + n / 0x40) = some ⟨n / 0x40, 1, 0x80, 0xBF⟩ := by
        rw [Utf8.lead?, if_neg (by omega), if_neg (by omega), if_pos (by omega),
          Nat.add_sub_cancel_left]
      rw [next_lead (by omega) hLead, List.cons_append, readTail_tail _ (by omega) (by omega)]
      exact char_of_bits (by omega)
    · split
      · rename_i hOne hTwo hThree
        refine ⟨_, [Utf8.tail (n / 0x40), Utf8.tail n], rfl, fun more => ?_⟩
        have hLead : Utf8.lead? (0xE0 + n / 0x1000) = some ⟨n / 0x1000, 2,
            if 0xE0 + n / 0x1000 = 0xE0 then 0xA0 else 0x80,
            if 0xE0 + n / 0x1000 = 0xED then 0x9F else 0xBF⟩ := by
          rw [Utf8.lead?, if_neg (by omega), if_neg (by omega), if_neg (by omega), if_pos (by omega),
            Nat.add_sub_cancel_left]
        -- The range behind 0xE0 leaves out shorter forms, the one behind 0xED surrogates.
        rw [next_lead (by omega) hLead, List.cons_append,
          readTail_tail _ (by split <;> omega) (by split <;> omega),
          List.cons_append, readTail_tail _ (by omega) (by omega)]
        exact char_of_bits (by omega)
      · rename_i hOne hTwo hThree
        refine ⟨_, [Utf8.tail (n / 0x1000), Utf8.tail (n / 0x40), Utf8.tail n], rfl, fun more => ?_⟩
        have hLead : Utf8.lead? (0xF0 + n / 0x40000) = some ⟨n / 0x40000, 3,
            if 0xF0 + n / 0x40000 = 0xF0 then 0x90 else 0x80,
            if 0xF0 + n / 0x40000 = 0xF4 then 0x8F else 0xBF⟩ := by
          rw [Utf8.lead?, if_neg (by omega), if_neg (by omega), if_neg (by omega), if_neg (by omega),
            if_pos (by omega), Nat.add_sub_cancel_left]
        rw [next_lead (by omega) hLead, List.cons_append,
          readTail_tail _ (by split <;> omega) (by split <;> omega),
          List.cons_append, readTail_tail _ (by omega) (by omega),
          List.cons_append, readTail_tail _ (by omega) (by omega)]
        exact char_of_bits (by omega)

end Utf8

section SingleByte

theorem readsAs_below {limit : Nat} (hLimit : limit ≤ 0x100) {c : Char} {b : UInt8}
    (h : SingleByte.byteBelow? limit c = some b) : ReadsAs (SingleByte.nextBelow limit) [b] c := by
  refine ⟨b, [], rfl, fun more => ?_⟩
  rw [SingleByte.byteBelow?] at h
  split at h
  · rename_i hLess
    cases h
    have hByte : (UInt8.ofNat c.toNat).toNat = c.toNat := by
      rw [UInt8.toNat_ofNat']
      omega
    rw [SingleByte.nextBelow, hByte, if_pos hLess]
    exact char_of_bits rfl
  · cases h

theorem windowsChar?_block (i : Nat) (hi : i < 32) :
    SingleByte.windowsChar? (UInt8.ofNat (0x80 + i)) = (SingleByte.windowsBlock[i]?).join := by
  have hAll : ∀ i : Fin 32, SingleByte.windowsChar? (UInt8.ofNat (0x80 + i.val)) =
      (SingleByte.windowsBlock[i.val]?).join := by decide +kernel
  exact hAll ⟨i, hi⟩

theorem windowsChar?_of_windowsByte? {c : Char} {b : UInt8} (h : SingleByte.windowsByte? c = some b) :
    SingleByte.windowsChar? b = some c := by
  rw [SingleByte.windowsByte?] at h
  split at h
  · rename_i hKept
    cases h
    have hCode : c.toNat < 0x80 ∨ 0xA0 ≤ c.toNat ∧ c.toNat < 0x100 := by simpa using hKept
    have hByte : (UInt8.ofNat c.toNat).toNat = c.toNat := by
      rw [UInt8.toNat_ofNat']
      omega
    rw [SingleByte.windowsChar?, if_pos, hByte, Char.ofNat_toNat]
    simpa [UInt8.lt_iff_toNat_lt, UInt8.le_iff_toNat_le, hByte] using hCode.imp_right And.left
  · obtain ⟨i, hIndex, rfl⟩ := Option.map_eq_some_iff.mp h
    obtain ⟨hi, hChar, -⟩ := List.findIdx?_eq_some_iff_getElem.mp hIndex
    rw [windowsChar?_block i hi, List.getElem?_eq_getElem hi, of_decide_eq_true hChar]
    rfl

theorem readsAs_windows {c : Char} {b : UInt8} (h : SingleByte.windowsByte? c = some b) :
    ReadsAs SingleByte.nextWindows [b] c := by
  refine ⟨b, [], rfl, fun more => ?_⟩
  rw [SingleByte.nextWindows, windowsChar?_of_windowsByte? h]
  rfl

end SingleByte

/-! ## Charsets that extend ASCII -/

/-- The charsets that have no signature and keep the bytes of ASCII. -/
def extendingAscii : List Charset := [utf8, latin1, ascii, windows1252]

section ExtendingAscii

variable {cs : Charset}

theorem encode_eq_ok_iff_of_ascii (hcs : cs ∈ extendingAscii) {s : List Char} {bytes : List UInt8} :
    cs.encode s = .ok bytes ↔ cs.Encodes s bytes := by
  have hSignature : cs.signature = [] := by
    revert hcs
    cases cs <;> decide
  rw [encode_eq_ok_iff, hSignature]
  simp

theorem decode_of_encodes (hcs : cs ∈ extendingAscii) {s : List Char} {bytes : List UInt8}
    (h : cs.Encodes s bytes) : cs.decode bytes = .ok s := by
  simp only [extendingAscii, List.mem_cons, List.not_mem_nil, or_false] at hcs
  rcases hcs with rfl | rfl | rfl | rfl
  · refine h.strictText_pieces (fun c front hChar => ?_) _ _
    cases hChar
    exact readsAs_utf8 c
  · refine h.strictText_pieces (fun c front hChar => ?_) _ _
    obtain ⟨b, hByte, rfl⟩ := Option.map_eq_some_iff.mp hChar
    exact readsAs_below (Nat.le_refl _) hByte
  · refine h.strictText_pieces (fun c front hChar => ?_) _ _
    obtain ⟨b, hByte, rfl⟩ := Option.map_eq_some_iff.mp hChar
    exact readsAs_below (by decide) hByte
  · refine h.strictText_pieces (fun c front hChar => ?_) _ _
    obtain ⟨b, hByte, rfl⟩ := Option.map_eq_some_iff.mp hChar
    exact readsAs_windows hByte

theorem encodeChar?_of_lt (hcs : cs ∈ extendingAscii) {c : Char} (hc : c.toNat < 0x80) :
    cs.encodeChar? c = some [UInt8.ofNat c.toNat] := by
  simp only [extendingAscii, List.mem_cons, List.not_mem_nil, or_false] at hcs
  rcases hcs with rfl | rfl | rfl | rfl
  · simp [encodeChar?, Utf8.encodeChar, hc]
  · have hLess : c.toNat < 0x100 := Nat.lt_of_lt_of_le hc (by decide)
    simp [encodeChar?, SingleByte.byteBelow?, hLess]
  · simp [encodeChar?, SingleByte.byteBelow?, hc]
  · simp [encodeChar?, SingleByte.windowsByte?, hc]

theorem le_of_windowsByte? {c : Char} {b : UInt8} (hc : 0x80 ≤ c.toNat)
    (h : SingleByte.windowsByte? c = some b) : 0x80 ≤ b.toNat := by
  rw [SingleByte.windowsByte?] at h
  split at h
  · rename_i hKept
    cases h
    have hCode : c.toNat < 0x80 ∨ 0xA0 ≤ c.toNat ∧ c.toNat < 0x100 := by simpa using hKept
    rw [UInt8.toNat_ofNat']
    omega
  · obtain ⟨i, hIndex, rfl⟩ := Option.map_eq_some_iff.mp h
    obtain ⟨hi, -, -⟩ := List.findIdx?_eq_some_iff_getElem.mp hIndex
    have hBlock : i < 32 := hi
    rw [UInt8.toNat_ofNat']
    omega

theorem le_of_byteBelow? {limit : Nat} (hLimit : limit ≤ 0x100) {c : Char} {b : UInt8}
    (hc : 0x80 ≤ c.toNat) (h : SingleByte.byteBelow? limit c = some b) : 0x80 ≤ b.toNat := by
  rw [SingleByte.byteBelow?] at h
  split at h
  · cases h
    rw [UInt8.toNat_ofNat']
    omega
  · cases h

theorem le_of_mem_utf8 {c : Char} (hc : 0x80 ≤ c.toNat) :
    Utf8.encodeChar c ≠ [] ∧ ∀ b ∈ Utf8.encodeChar c, 0x80 ≤ b.toNat := by
  have hValid : c.toNat < 0xD800 ∨ 0xDFFF < c.toNat ∧ c.toNat < 0x110000 := c.valid
  have hTail (n : Nat) : 0x80 ≤ (Utf8.tail n).toNat := by
    rw [Utf8.tail, UInt8.toNat_ofNat']
    omega
  have hLead {n : Nat} (hLow : 0x80 ≤ n) (hHigh : n < 0x100) : 0x80 ≤ (UInt8.ofNat n).toNat := by
    rw [UInt8.toNat_ofNat']
    omega
  rw [Utf8.encodeChar]
  generalize c.toNat = n at hc hValid
  split
  · omega
  · split
    · exact ⟨List.cons_ne_nil _ _, by simpa [hTail] using hLead (n := 0xC0 + n / 0x40) (by omega) (by omega)⟩
    · split
      · exact ⟨List.cons_ne_nil _ _,
          by simpa [hTail] using hLead (n := 0xE0 + n / 0x1000) (by omega) (by omega)⟩
      · exact ⟨List.cons_ne_nil _ _,
          by simpa [hTail] using hLead (n := 0xF0 + n / 0x40000) (by omega) (by omega)⟩

/-- Characters outside ASCII take no bytes of ASCII. -/
theorem le_of_mem_encodeChar? (hcs : cs ∈ extendingAscii) {c : Char} (hc : 0x80 ≤ c.toNat)
    {front : List UInt8} (h : cs.encodeChar? c = some front) :
    front ≠ [] ∧ ∀ b ∈ front, 0x80 ≤ b.toNat := by
  have hSingle {byte? : Option UInt8} (hByte : ∀ b, byte? = some b → 0x80 ≤ b.toNat)
      (h : byte?.map ([·]) = some front) : front ≠ [] ∧ ∀ b ∈ front, 0x80 ≤ b.toNat := by
    obtain ⟨b, hb, rfl⟩ := Option.map_eq_some_iff.mp h
    exact ⟨List.cons_ne_nil _ _, List.forall_mem_singleton.mpr (hByte b hb)⟩
  simp only [extendingAscii, List.mem_cons, List.not_mem_nil, or_false] at hcs
  rcases hcs with rfl | rfl | rfl | rfl
  · cases h
    exact le_of_mem_utf8 hc
  · exact hSingle (fun b hb => le_of_byteBelow? (Nat.le_refl _) hc hb) h
  · exact hSingle (fun b hb => le_of_byteBelow? (by decide) hc hb) h
  · exact hSingle (fun b hb => le_of_windowsByte? hc hb) h

/-- A byte of ASCII is a character of ASCII. -/
theorem Encodes.exists_ascii (hcs : cs ∈ extendingAscii) {s : List Char} {b : UInt8} {back : List UInt8}
    (h : cs.Encodes s (b :: back)) (hb : b.toNat < 0x80) :
    ∃ c rest, s = c :: rest ∧ c.toNat < 0x80 ∧ UInt8.ofNat c.toNat = b ∧ cs.Encodes rest back := by
  generalize hBytes : b :: back = bytes at h
  cases h with
  | nil => cases hBytes
  | @cons c front rest back' hChar h =>
    by_cases hc : c.toNat < 0x80
    · cases (encodeChar?_of_lt hcs hc).symm.trans hChar
      cases hBytes
      exact ⟨c, rest, rfl, hc, rfl, h⟩
    · obtain ⟨hNil, hBig⟩ := le_of_mem_encodeChar? hcs (Nat.le_of_not_lt hc) hChar
      obtain ⟨d, more, rfl⟩ := List.exists_cons_of_ne_nil hNil
      cases hBytes
      have hLeast := hBig b List.mem_cons_self
      omega

/-- ASCII text as bytes. -/
def asciiBytes (s : List Char) : List UInt8 := s.map fun c => UInt8.ofNat c.toNat

theorem encodes_asciiBytes (hcs : cs ∈ extendingAscii) {s : List Char} (hs : ∀ c ∈ s, c.toNat < 0x80) :
    cs.Encodes s (asciiBytes s) := by
  induction s with
  | nil => exact .nil
  | cons c s ih =>
    obtain ⟨hc, hs⟩ := List.forall_mem_cons.mp hs
    exact .cons (encodeChar?_of_lt hcs hc) (ih hs)

end ExtendingAscii

end UriRouting.Charset
