/-! # Splitting

A text is cut at every separator into a first part and the parts behind the separators. -/

set_option autoImplicit false

namespace UriRouting.Text

variable {α : Type} [DecidableEq α]

def splitOn (sep : α) : List α → List α × List (List α)
  | [] => ([], [])
  | c :: rest =>
    let (first, more) := splitOn sep rest
    if c = sep then ([], first :: more) else (c :: first, more)

def parts (sep : α) (s : List α) : List (List α) :=
  let (first, more) := splitOn sep s
  first :: more

theorem splitOn_cons_self (sep : α) (rest : List α) :
    splitOn sep (sep :: rest) = ([], (splitOn sep rest).1 :: (splitOn sep rest).2) := by
  simp [splitOn]

theorem splitOn_cons_of_ne {sep c : α} (rest : List α) (h : c ≠ sep) :
    splitOn sep (c :: rest) = (c :: (splitOn sep rest).1, (splitOn sep rest).2) := by
  simp [splitOn, h]

theorem splitOn_fst (sep : α) (s : List α) : (splitOn sep s).1 = s.takeWhile (· ≠ sep) := by
  induction s with
  | nil => rfl
  | cons c rest ih =>
    by_cases h : c = sep <;> simp [splitOn, h, ih]

theorem splitOn_join (sep : α) (s : List α) :
    (splitOn sep s).1 ++ (splitOn sep s).2.flatMap (sep :: ·) = s := by
  induction s with
  | nil => rfl
  | cons c rest ih =>
    by_cases h : c = sep <;> simp [splitOn, h, ih]

theorem splitOn_append (sep : α) {s : List α} (rest : List α) (h : sep ∉ s) :
    splitOn sep (s ++ rest) = (s ++ (splitOn sep rest).1, (splitOn sep rest).2) := by
  induction s with
  | nil => rfl
  | cons c s ih =>
    rw [List.mem_cons, not_or] at h
    simp [splitOn, ih h.2, Ne.symm h.1]

def splitOnPair (a b : α) : List α → List α × List (List α)
  | x :: y :: rest =>
    if x = a ∧ y = b then
      let (first, more) := splitOnPair a b rest
      ([], first :: more)
    else
      let (first, more) := splitOnPair a b (y :: rest)
      (x :: first, more)
  | s => (s, [])

def joinWith (sep : List α) : List (List α) → List α
  | [] => []
  | [part] => part
  | part :: rest => part ++ sep ++ joinWith sep rest

def partition (sep : α) : List α → List α × Option (List α)
  | [] => ([], none)
  | c :: rest =>
    if c = sep then ([], some rest)
    else
      let (before, behind?) := partition sep rest
      (c :: before, behind?)

theorem partition_of_not_mem {sep : α} {s : List α} (h : sep ∉ s) : partition sep s = (s, none) := by
  induction s with
  | nil => rfl
  | cons c s ih =>
    rw [List.mem_cons, not_or] at h
    simp [partition, ih h.2, Ne.symm h.1]

theorem partition_append {sep : α} {s : List α} (rest : List α) (h : sep ∉ s) :
    partition sep (s ++ sep :: rest) = (s, some rest) := by
  induction s with
  | nil => simp [partition]
  | cons c s ih =>
    rw [List.mem_cons, not_or] at h
    simp [partition, ih h.2, Ne.symm h.1]

theorem eq_of_partition {sep : α} {s before behind : List α}
    (h : partition sep s = (before, some behind)) : s = before ++ sep :: behind := by
  induction s generalizing before with
  | nil => simp [partition] at h
  | cons c s ih =>
    rw [partition] at h
    split at h
    · simp_all
    · cases hs : partition sep s with
      | mk b b? =>
        simp only [hs, Prod.mk.injEq] at h
        obtain ⟨rfl, rfl⟩ := h
        rw [ih hs]
        rfl

theorem eq_of_partition_none {sep : α} {s before : List α} (h : partition sep s = (before, none)) :
    s = before := by
  induction s generalizing before with
  | nil => simpa [partition] using h
  | cons c s ih =>
    rw [partition] at h
    split at h
    · simp at h
    · cases hs : partition sep s with
      | mk b b? =>
        simp only [hs, Prod.mk.injEq] at h
        obtain ⟨rfl, rfl⟩ := h
        rw [ih hs]

theorem notMem_of_partition {sep : α} {s before : List α} {behind? : Option (List α)}
    (h : partition sep s = (before, behind?)) : sep ∉ before := by
  induction s generalizing before with
  | nil =>
    cases h
    exact List.not_mem_nil
  | cons c s ih =>
    rw [partition] at h
    split at h
    · cases h
      exact List.not_mem_nil
    · rename_i hc
      cases hs : partition sep s with
      | mk b b? =>
        simp only [hs, Prod.mk.injEq] at h
        obtain ⟨rfl, rfl⟩ := h
        exact List.not_mem_cons_of_ne_of_not_mem (Ne.symm hc) (ih hs)

end UriRouting.Text
