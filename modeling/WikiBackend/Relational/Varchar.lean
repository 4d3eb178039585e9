import Mathlib.Tactic.Common

/-! The assignment of a text to a column of type `varchar(n)`. -/

namespace Relational

/-- Characters beyond the length of the column are cut off if all of them are spaces; otherwise the
text stays too long. -/
def clip (n : Nat) (s : String) : String :=
  if (s.toList.drop n).all (· = ' ') then String.ofList (s.toList.take n) else s

variable {n : Nat} {s : String} {c : Char}

theorem clip_of_length_le (h : s.length ≤ n) : clip n s = s := by
  have htake : s.toList.take n = s.toList := List.take_of_length_le (String.length_toList ▸ h)
  unfold clip
  split
  · rw [htake, String.ofList_toList]
  · rfl

theorem clip_eq_self (h : ' ' ∉ s.toList) : clip n s = s := by
  unfold clip
  split
  · next hspaces =>
    have hnil : s.toList.drop n = [] := by
      rw [List.eq_nil_iff_forall_not_mem]
      intro c hc
      have hspace : c = ' ' := by simpa using List.all_eq_true.1 hspaces c hc
      exact h (hspace ▸ List.mem_of_mem_drop hc)
    rw [List.take_of_length_le (List.drop_eq_nil_iff.1 hnil), String.ofList_toList]
  · rfl

theorem mem_clip (hc : c ≠ ' ') : c ∈ (clip n s).toList ↔ c ∈ s.toList := by
  unfold clip
  split
  · next hspaces =>
    rw [String.toList_ofList]
    refine ⟨List.mem_of_mem_take, ?_⟩
    intro hm
    rw [← List.take_append_drop n s.toList, List.mem_append] at hm
    refine hm.resolve_right fun hd => hc ?_
    simpa using List.all_eq_true.1 hspaces c hd
  · rfl

theorem clip_clip : clip n (clip n s) = clip n s := by
  by_cases hspaces : (s.toList.drop n).all (· = ' ')
  · apply clip_of_length_le
    rw [clip, if_pos hspaces, String.length_ofList]
    exact List.length_take_le n s.toList
  · have hself : clip n s = s := if_neg hspaces
    rw [hself, hself]

end Relational
