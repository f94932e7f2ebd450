import Mathlib.Data.List.Nodup

/-! # Lists without repetition

What is left of a list when later occurrences are dropped. -/

set_option autoImplicit false

namespace UriRouting

variable {α : Type} [DecidableEq α]

/-- Dropping the later occurrences of the first element leaves a shorter list to go on with. -/
@[elab_as_elim] theorem eraseDups_induction {P : List α → Prop} (nil : P [])
    (cons : ∀ a l, P (l.filter fun b => !b == a) → P (a :: l)) : ∀ l, P l
  | [] => nil
  | a :: l => cons a l (eraseDups_induction nil cons _)
termination_by l => l.length
decreasing_by exact Nat.lt_succ_of_le (List.length_filter_le _ _)

theorem nodup_eraseDups (l : List α) : l.eraseDups.Nodup := by
  induction l using eraseDups_induction with
  | nil => exact List.nodup_nil
  | cons a l ih =>
    rw [List.eraseDups_cons]
    refine List.nodup_cons.mpr ⟨fun hMem => ?_, ih⟩
    rw [List.mem_eraseDups, List.mem_filter] at hMem
    simp at hMem

theorem filter_ne_of_not_mem {a : α} {l : List α} (h : a ∉ l) : (l.filter fun b => !b == a) = l := by
  refine List.filter_eq_self.mpr fun b hb => ?_
  rw [Bool.not_eq_true', beq_eq_false_iff_ne]
  rintro rfl
  exact h hb

theorem eraseDups_of_nodup {l : List α} (h : l.Nodup) : l.eraseDups = l := by
  induction l with
  | nil => rfl
  | cons a l ih =>
    obtain ⟨ha, hl⟩ := List.nodup_cons.mp h
    rw [List.eraseDups_cons, filter_ne_of_not_mem ha, ih hl]

theorem filter_eraseDups (p : α → Bool) (l : List α) : l.eraseDups.filter p = (l.filter p).eraseDups := by
  induction l using eraseDups_induction with
  | nil => rfl
  | cons a l ih =>
    have hRest : (l.filter fun b => !b == a).filter p = (l.filter p).filter fun b => !b == a := by
      rw [List.filter_filter, List.filter_filter]
      exact List.filter_congr fun b _ => Bool.and_comm _ _
    rw [List.eraseDups_cons, List.filter_cons, List.filter_cons, ih, hRest]
    split
    · rw [List.eraseDups_cons]
    · rename_i hp
      rw [filter_ne_of_not_mem fun hMem => hp (List.mem_filter.mp hMem).2]

end UriRouting
