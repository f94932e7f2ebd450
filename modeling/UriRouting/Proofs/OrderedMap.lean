import UriRouting.OrderedMap

/-! # Writing one map over another

A map made of entries holds each key once, with its last value. Writing such a map over another is the
same as writing the entries one after the other, since a key keeps its place however often it is written. -/

set_option autoImplicit false

namespace UriRouting.OrderedMap

variable {α β : Type} [DecidableEq α]

theorem overlay_append (m entries more : OrderedMap α β) :
    m.overlay (entries ++ more) = (m.overlay entries).overlay more :=
  List.foldl_append

theorem mem_keys_overlay {m entries : OrderedMap α β} {key : α} :
    key ∈ (m.overlay entries).keys ↔ key ∈ entries.map Prod.fst ∨ key ∈ m.keys := by
  induction entries generalizing m with
  | nil => exact (or_iff_right List.not_mem_nil).symm
  | cons entry rest ih =>
    rw [show m.overlay (entry :: rest) = (m.put entry.1 entry.2).overlay rest from rfl, ih, mem_keys_put,
      List.map_cons, List.mem_cons, or_assoc]
    exact or_left_comm

theorem put_put_self (m : OrderedMap α β) (key : α) (first last : β) :
    (m.put key first).put key last = m.put key last := by
  induction m with
  | nil => exact if_pos rfl
  | cons entry rest ih =>
    by_cases hKey : entry.1 = key
    · rw [put, if_pos hKey, put, if_pos rfl, put, if_pos hKey]
    · rw [put, if_neg hKey, put, if_neg hKey, ih, put, if_neg hKey]

theorem put_comm {m : OrderedMap α β} {key other : α} (hKey : key ∈ m.keys) (hNe : other ≠ key)
    (value value' : β) : (m.put other value').put key value = (m.put key value).put other value' := by
  induction m with
  | nil => cases hKey
  | cons entry rest ih =>
    by_cases hHead : entry.1 = key
    · -- The key stands first: the other one is written behind it, before or after.
      have hOther : entry.1 ≠ other := fun h => hNe (h.symm.trans hHead)
      rw [put, if_neg hOther, put, if_pos hHead, put, if_pos hHead, put, if_neg hNe.symm]
    · have hRest : key ∈ keys rest := (List.mem_cons.mp hKey).resolve_left (Ne.symm hHead)
      by_cases hOther : entry.1 = other
      · rw [put, if_pos hOther, put, if_neg hNe, put, if_neg hHead, put, if_pos hOther]
      · rw [put, if_neg hOther, put, if_neg hHead, ih hRest, put, if_neg hHead, put, if_neg hOther]

/-- A key that is there already may be written before or after entries of other keys. -/
theorem put_overlay {m entries : OrderedMap α β} {key : α} (hKey : key ∈ m.keys)
    (hNotMem : key ∉ entries.keys) (value : β) :
    (m.overlay entries).put key value = (m.put key value).overlay entries := by
  induction entries generalizing m with
  | nil => rfl
  | cons entry rest ih =>
    obtain ⟨hNe, hRest⟩ := List.ne_and_not_mem_of_not_mem_cons hNotMem
    calc ((m.put entry.1 entry.2).overlay rest).put key value
      _ = ((m.put entry.1 entry.2).put key value).overlay rest :=
        ih (mem_keys_put.mpr (.inr hKey)) hRest
      _ = ((m.put key value).put entry.1 entry.2).overlay rest := by
        rw [put_comm hKey (Ne.symm hNe)]

theorem nodup_keys_put {m : OrderedMap α β} (h : m.keys.Nodup) (key : α) (value : β) :
    (m.put key value).keys.Nodup := by
  induction m with
  | nil => exact List.pairwise_singleton _ key
  | cons entry rest ih =>
    obtain ⟨hNotMem, hRest⟩ := List.nodup_cons.mp h
    rw [put]
    split
    · rename_i hKey
      exact List.nodup_cons.mpr ⟨hKey ▸ hNotMem, hRest⟩
    · rename_i hKey
      refine List.nodup_cons.mpr ⟨fun hMem => ?_, ih hRest⟩
      exact (mem_keys_put.mp hMem).elim hKey hNotMem

/-- A change of the changes is the last change. -/
theorem overlay_put {changes : OrderedMap α β} (h : changes.keys.Nodup) (m : OrderedMap α β)
    (key : α) (value : β) : m.overlay (changes.put key value) = (m.overlay changes).put key value := by
  induction changes generalizing m with
  | nil => rfl
  | cons entry rest ih =>
    obtain ⟨hNotMem, hRest⟩ := List.nodup_cons.mp h
    rw [put]
    split
    · rename_i hKey
      subst hKey
      calc (m.put entry.1 value).overlay rest
        _ = ((m.put entry.1 entry.2).put entry.1 value).overlay rest := by rw [put_put_self]
        _ = ((m.put entry.1 entry.2).overlay rest).put entry.1 value :=
          (put_overlay (mem_keys_put.mpr (.inl rfl)) hNotMem value).symm
    · exact ih hRest (m.put entry.1 entry.2)

theorem overlay_overlay {changes : OrderedMap α β} (h : changes.keys.Nodup)
    (m entries : OrderedMap α β) : m.overlay (changes.overlay entries) = (m.overlay changes).overlay entries := by
  induction entries generalizing changes with
  | nil => rfl
  | cons entry rest ih =>
    calc m.overlay ((changes.put entry.1 entry.2).overlay rest)
      _ = (m.overlay (changes.put entry.1 entry.2)).overlay rest := ih (nodup_keys_put h _ _)
      _ = ((m.overlay changes).put entry.1 entry.2).overlay rest := by rw [overlay_put h]

theorem overlay_ofList (m entries : OrderedMap α β) : m.overlay (ofList entries) = m.overlay entries := by
  have hNil : (keys ([] : OrderedMap α β)).Nodup := List.nodup_nil
  exact overlay_overlay hNil m entries

theorem ofList_append (entries more : List (α × β)) :
    ofList (entries ++ more) = (ofList entries).overlay (ofList more) := by
  rw [overlay_ofList]
  exact overlay_append [] entries more

end UriRouting.OrderedMap
