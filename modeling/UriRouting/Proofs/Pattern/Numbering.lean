import UriRouting.Proofs.Pattern.Edit
import Mathlib.Data.List.Nodup

/-! # The numbers of groups

Groups are numbered in the order in which they are opened. No step loses a number or uses one twice,
and names stay with their groups, so a group that was opened for itself is told apart from all others
in the finished pattern. -/

set_option autoImplicit false

namespace UriRouting.Pattern

/-- The group of an open parenthesis and the groups of the pieces behind it. -/
def Frame.indices (f : Frame) : List Nat :=
  f.opener.indices ++ f.branches.flatMap Node.indices ++ f.pieces.flatMap (·.node.indices)

namespace Draft

def indices (d : Draft) : List Nat := (d.frame :: d.outer).flatMap Frame.indices

structure Numbered (d : Draft) : Prop where
  nodup : d.indices.Nodup
  lt : ∀ i ∈ d.indices, i < d.groups.length

theorem numbered_start : start.Numbered := ⟨List.nodup_nil, fun i hi => by cases hi⟩

end Draft

theorem Frame.count_indices_sequence (f : Frame) (i : Nat) :
    f.sequence.indices.count i = (f.pieces.flatMap (·.node.indices)).count i := by
  have hPerm := (List.reverse_perm f.pieces).flatMap_right (·.node.indices)
  rw [sequence, Node.indices_ofSequence, List.flatMap_map]
  exact hPerm.count_eq i

theorem Frame.count_indices_body (f : Frame) (i : Nat) :
    f.body.indices.count i =
      (f.branches.flatMap Node.indices).count i + (f.pieces.flatMap (·.node.indices)).count i := by
  have hPerm := (List.reverse_perm f.branches).flatMap_right Node.indices
  rw [body, Node.indices_ofBranches, List.flatMap_append, List.count_append, hPerm.count_eq i,
    List.flatMap_singleton, count_indices_sequence]

/-- What every step keeps. -/
structure Keeps (d e : Draft) : Prop where
  names : ∃ more, e.names = d.names ++ more
  globalFlags : e.globalFlags = d.globalFlags
  numbered : d.Numbered → e.Numbered

namespace Keeps

variable {d e f : Draft}

theorem refl (d : Draft) : Keeps d d := ⟨⟨[], (List.append_nil _).symm⟩, rfl, id⟩

theorem trans (h : Keeps d e) (h' : Keeps e f) : Keeps d f where
  names := by
    obtain ⟨more, hMore⟩ := h.names
    obtain ⟨more', hMore'⟩ := h'.names
    exact ⟨more ++ more', by rw [hMore', hMore, List.append_assoc]⟩
  globalFlags := h'.globalFlags.trans h.globalFlags
  numbered := h'.numbered ∘ h.numbered

theorem lookup (h : Keeps d e) {name : String} {index : Nat} (hName : d.names.lookup name = some index) :
    e.names.lookup name = some index := by
  obtain ⟨more, hMore⟩ := h.names
  rw [hMore, List.lookup_append, hName]
  rfl

theorem of_count (hNames : e.names = d.names) (hFlags : e.globalFlags = d.globalFlags)
    (hGroups : e.groups.length = d.groups.length)
    (hCount : ∀ i, e.indices.count i ≤ d.indices.count i) : Keeps d e where
  names := ⟨[], by rw [hNames, List.append_nil]⟩
  globalFlags := hFlags
  numbered hd := by
    refine ⟨List.nodup_iff_count_le_one.mpr fun i => ?_, fun i hi => ?_⟩
    · exact Nat.le_trans (hCount i) (List.nodup_iff_count_le_one.mp hd.nodup i)
    · rw [hGroups]
      have hPos := Nat.lt_of_lt_of_le (List.count_pos_iff.mpr hi) (hCount i)
      exact hd.lt i (List.count_pos_iff.mp hPos)

end Keeps

theorem Keeps.of_openCapture {d next : Draft} {name? : Option String} {start left : Nat}
    (h : d.openCapture name? start left = .ok next) : Keeps d next := by
  have hNumbered (names : List (String × Nat)) : d.Numbered → Draft.Numbered
      { { d with groups := d.groups ++ [none] }.openFrame (.capture d.groups.length) start
        d.frame.verbose with names } := by
    intro hd
    refine ⟨List.nodup_cons.mpr ⟨fun hMem => ?_, hd.nodup⟩, fun i hi => ?_⟩
    · exact Nat.lt_irrefl _ (hd.lt _ hMem)
    · rw [Draft.openFrame, List.length_append, List.length_singleton]
      rcases List.mem_cons.mp hi with rfl | hi
      · exact Nat.lt_succ_self _
      · exact Nat.lt_succ_of_lt (hd.lt i hi)
  unfold Draft.openCapture at h
  cases name? with
  | none =>
    cases h
    exact ⟨⟨[], (List.append_nil _).symm⟩, rfl, hNumbered d.names⟩
  | some name =>
    dsimp only at h
    split at h
    · cases h
    · cases h
      exact ⟨⟨_, rfl⟩, rfl, hNumbered _⟩

/-- What a closing parenthesis does: the group becomes a piece of its parent. -/
structure Draft.Closes (d next : Draft) (parent : Frame) (node : Node) : Prop where
  outer : d.outer = parent :: next.outer
  frame : next.frame = { parent with pieces := ⟨node, .ordinary⟩ :: parent.pieces }
  set : next.set? = d.set?
  names : next.names = d.names
  globalFlags : next.globalFlags = d.globalFlags
  groups : next.groups.length = d.groups.length
  count_le : ∀ i, node.indices.count i ≤ d.frame.indices.count i
  capture : ∀ index, d.frame.opener = .capture index → node = .group index d.frame.body

theorem Draft.closes_of_closeFrame {d next : Draft} {left : Nat} (h : d.closeFrame left = .ok next) :
    ∃ parent node, d.Closes next parent node := by
  rw [closeFrame] at h
  split at h
  · cases h
  · rename_i parent outer hOuter
    refine ⟨parent, ?_⟩
    have hBody := d.frame.count_indices_body
    have hSequence := d.frame.count_indices_sequence
    dsimp only at h
    split at h <;> rename_i hOpener <;> cases h
    all_goals
      refine ⟨_, hOuter, rfl, rfl, rfl, rfl, by simp [push], fun i => ?_, ?_⟩
      · simp [Frame.indices, Node.indices, Opener.indices, hOpener, hBody, hSequence,
          List.count_cons]
      · simp [hOpener]

theorem Edit.keeps {move : Move} {d next : Draft} (h : Edit move d next) : Keeps d next := by
  cases h with
  | same => exact .refl d
  | push _ node kind h =>
    refine .of_count rfl rfl rfl fun i => ?_
    simp [Draft.push, Draft.indices, Frame.indices, h]
  | @repeatLast _ piece left h greed min max =>
    refine .of_count rfl rfl rfl fun i => ?_
    obtain ⟨pieces, hPieces⟩ : ∃ pieces, d.frame.pieces = piece :: pieces := by
      rw [Draft.checkRepeatable] at h
      split at h
      · cases h
      · rename_i hPieces
        split at h
        · cases h
        · cases h
        · cases h
          exact ⟨_, hPieces⟩
    simp [Draft.repeatLast, Draft.indices, Frame.indices, hPieces, Node.indices]
  | endBranch h =>
    have hSequence := d.frame.count_indices_sequence
    rw [Draft.endBranch] at h
    split at h
    · rename_i hOpener
      cases h
      refine .of_count rfl rfl rfl fun i => ?_
      simp [Draft.indices, Frame.indices, hOpener, Opener.indices, hSequence]
      omega
    · cases h
    · cases h
      refine .of_count rfl rfl rfl fun i => ?_
      simp [Draft.indices, Frame.indices, hSequence]
      omega
  | keepSet => exact .of_count rfl rfl rfl fun i => Nat.le_refl _
  | closeSet =>
    refine .of_count rfl rfl rfl fun i => ?_
    simp [Draft.push, Draft.indices, Frame.indices, OpenSet.indices_node]
  | enter _ _ h =>
    refine .of_count rfl rfl rfl fun i => ?_
    simp [Draft.openFrame, Draft.indices, Frame.indices, h]
  | capture h => exact .of_openCapture h
  | leave h =>
    obtain ⟨parent, node, hClosed⟩ := Draft.closes_of_closeFrame h
    refine .of_count hClosed.names hClosed.globalFlags hClosed.groups fun i => ?_
    have hCount := hClosed.count_le i
    simp only [Frame.indices, List.count_append] at hCount
    simp [Draft.indices, Frame.indices, hClosed.outer, hClosed.frame]
    omega

end UriRouting.Pattern
