import Mathlib.Data.List.Forall2
import UriRouting.Unicode.Case

/-! # Equality up to case

A character equals itself and the characters that have its lower form. A semicolon equals nothing else:
no letter has a lower form as low as that. -/

set_option autoImplicit false

namespace UriRouting.Unicode

theorem equalUpToCase_self (n : Nat) : equalUpToCase n n = true := by
  rw [equalUpToCase, lowerVariants]
  cases hForms : sharedUpperForms.find? (·.contains (lowerCode n)) with
  | none => exact List.contains_iff_mem.mpr (List.mem_singleton.mpr rfl)
  | some forms => simpa using List.find?_some hForms

theorem equalUpToCase_of_lowerCode {m n : Nat} (h : lowerCode m = lowerCode n) : equalUpToCase m n = true := by
  rw [equalUpToCase, ← h]
  exact equalUpToCase_self m

/-- No letter has a lower form as low as a semicolon. -/
theorem lt_of_image? {run : CaseRun} (hRun : run ∈ lowerRuns) {n m : Nat}
    (h : run.image? n = some m) : ';'.toNat < m := by
  have hAll : (lowerRuns.all fun run => (';'.toNat : Int) < run.first + run.offset) = true := by
    decide +kernel
  have hFirst := of_decide_eq_true (List.all_eq_true.mp hAll run hRun)
  rw [CaseRun.image?] at h
  split at h
  · rename_i hIn
    simp only [Bool.and_eq_true, decide_eq_true_eq] at hIn
    have hImage := Option.some.inj h
    omega
  · cases h

theorem eq_semicolon_of_lowerCode {n : Nat} (h : lowerCode n = ';'.toNat) : n = ';'.toNat := by
  rw [lowerCode] at h
  split at h
  · rw [asciiLowerCode] at h
    split at h
    · rename_i hLetter
      simp only [Bool.and_eq_true, decide_eq_true_eq] at hLetter
      have hCode : ';'.toNat = 0x3B := rfl
      omega
    · exact h
  · cases hImage : lowerRuns.findSome? (·.image? n) with
    | none =>
      rw [hImage] at h
      exact h
    | some m =>
      obtain ⟨run, hRun, hSome⟩ := List.exists_of_findSome?_eq_some hImage
      have hLess := lt_of_image? hRun hSome
      rw [hImage] at h
      exact absurd h (Nat.ne_of_gt hLess)

theorem equalUpToCase_semicolon {n : Nat} (h : n ≠ ';'.toNat) :
    equalUpToCase ';'.toNat n = false := by
  have hVariants : lowerVariants (lowerCode ';'.toNat) = [';'.toNat] := by decide +kernel
  rw [equalUpToCase, hVariants]
  refine Bool.eq_false_iff.mpr fun hMem => h ?_
  exact eq_semicolon_of_lowerCode (List.mem_singleton.mp (List.contains_iff_mem.mp hMem))

/-! ## Texts -/

/-- The characters of two texts are equal up to case, one by one. -/
def Alike (a b : List Char) : Prop :=
  List.Forall₂ (fun c d => equalUpToCase c.toNat d.toNat = true) a b

namespace Alike

variable {a b : List Char}

/-- Writing letters in another case makes no difference. -/
theorem of_map_lowerCode (h : a.map (fun c => lowerCode c.toNat) = b.map fun c => lowerCode c.toNat) :
    Alike a b := by
  rw [← List.forall₂_eq_eq_eq, List.forall₂_map_left_iff, List.forall₂_map_right_iff] at h
  exact h.imp fun _ _ hLower => equalUpToCase_of_lowerCode hLower

theorem not_mem (h : Alike a b) {d : Char} (hd : ∀ c ∈ a, equalUpToCase c.toNat d.toNat = false) : d ∉ b := by
  induction h with
  | nil => exact List.not_mem_nil
  | @cons c e a b hSame _ ih =>
    obtain ⟨hHead, hRest⟩ := List.forall_mem_cons.mp hd
    rw [List.mem_cons, not_or]
    refine ⟨?_, ih hRest⟩
    rintro rfl
    cases hSame.symm.trans hHead

end Alike

end UriRouting.Unicode
