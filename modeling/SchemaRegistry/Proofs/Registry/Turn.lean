import Mathlib.Data.List.Induction
import SchemaRegistry.Proofs.Registry.Registration

/-!
# The turn of a definition

The same definition may stand in a list several times, and then only its position tells which of them is
registered. `Registry.RegisteredAt` and `Registry.RefusedAt` say for a position what becomes of the
definition there when it has its turn. The accepted definitions are those at the positions of the first
kind (`Definition.mem_accepted_iff`), in the order of these positions (`AcceptedAt.exists_after`), and a
definition at a position of the second kind might as well not be in the list
(`Definition.accepted_of_refused`).
-/

namespace SchemaRegistry

variable {m : Type → Type}

namespace Definition

variable {ds : List (Definition m)}

/-- The definition at position `p` is accepted when it has its turn. -/
def AcceptedAt (ds : List (Definition m)) (p : Nat) (d : Definition m) : Prop :=
  ds[p]? = some d ∧ conflictFindings (accepted (ds.take p)) d = []

/-- The definitions before a position, the one there, and those after it. -/
theorem take_append_cons_drop {p : Nat} {d : Definition m} (hd : ds[p]? = some d) :
    ds.take p ++ d :: ds.drop (p + 1) = ds := by
  obtain ⟨hp, hget⟩ := List.getElem?_eq_some_iff.1 hd
  rw [← hget, List.getElem_cons_drop, List.take_append_drop]

theorem accepted_append (xs ys : List (Definition m)) :
    accepted (xs ++ ys) = ys.foldl accept (accepted xs) := by
  rw [accepted, List.foldl_append, ← accepted]

theorem accepted_append_singleton (ds : List (Definition m)) (d : Definition m) :
    accepted (ds ++ [d]) = accept (accepted ds) d := by
  rw [accepted_append, List.foldl_cons, List.foldl_nil]

/-- What has been accepted stays at the front. -/
theorem exists_foldl_accept (held ds : List (Definition m)) :
    ∃ after, ds.foldl accept held = held ++ after := by
  induction ds generalizing held with
  | nil => exact ⟨[], by simp⟩
  | cons d ds ih =>
    obtain ⟨after, hafter⟩ := ih (accept held d)
    by_cases hnone : conflictFindings held d = []
    · refine ⟨d :: after, ?_⟩
      rw [List.foldl_cons, hafter, accept_of_eq_nil hnone, List.append_assoc, List.singleton_append]
    · refine ⟨after, ?_⟩
      rw [List.foldl_cons, hafter, accept_of_ne_nil hnone]

/-- An accepted definition comes after those accepted before its turn. -/
theorem AcceptedAt.exists_after {p : Nat} {d : Definition m} (h : AcceptedAt ds p d) :
    ∃ after, accepted ds = accepted (ds.take p) ++ d :: after := by
  obtain ⟨hd, hnone⟩ := h
  have hsplit := take_append_cons_drop hd
  obtain ⟨after, hafter⟩ := exists_foldl_accept (accepted (ds.take p) ++ [d]) (ds.drop (p + 1))
  refine ⟨after, ?_⟩
  have hfold : accepted ds = (ds.drop (p + 1)).foldl accept (accepted (ds.take p) ++ [d]) := by
    rw [← accept_of_eq_nil hnone, ← List.foldl_cons, ← accepted_append, hsplit]
  rw [hfold, hafter, List.append_assoc, List.singleton_append]

/-- Which definitions are accepted among the first ones is settled before the others have their turn. -/
theorem acceptedAt_take_iff {n p : Nat} {d : Definition m} :
    AcceptedAt (ds.take n) p d ↔ p < n ∧ AcceptedAt ds p d := by
  have hearlier : p < n → (AcceptedAt (ds.take n) p d ↔ AcceptedAt ds p d) := by
    intro hp
    have hmin : min p n = p := by omega
    rw [AcceptedAt, List.getElem?_take_of_lt hp, List.take_take, hmin, ← AcceptedAt]
  constructor
  · intro h
    have hp : p < n := by
      have hlt : p < (ds.take n).length := (List.getElem?_eq_some_iff.1 h.1).1
      have hle := List.length_take_le n ds
      omega
    exact ⟨hp, (hearlier hp).1 h⟩
  · rintro ⟨hp, h⟩
    exact (hearlier hp).2 h

/-- The accepted definitions are those at the positions where one is accepted. -/
theorem mem_accepted_iff {d : Definition m} : d ∈ accepted ds ↔ ∃ p, AcceptedAt ds p d := by
  constructor
  · intro h
    induction ds using List.reverseRecOn with
    | nil => exact absurd h List.not_mem_nil
    | append_singleton ds e ih =>
      have hold : d ∈ accepted ds → ∃ p, AcceptedAt (ds ++ [e]) p d := by
        intro hd
        obtain ⟨p, hp⟩ := ih hd
        have htake : (ds ++ [e]).take ds.length = ds := List.take_left
        rw [← htake] at hp
        exact ⟨p, (acceptedAt_take_iff.1 hp).2⟩
      rw [accepted_append_singleton] at h
      by_cases hnone : conflictFindings (accepted ds) e = []
      · rw [accept_of_eq_nil hnone, List.mem_append, List.mem_singleton] at h
        rcases h with hd | rfl
        · exact hold hd
        · -- the last definition is accepted at the last position
          refine ⟨ds.length, by simp, ?_⟩
          rwa [List.take_left]
      · rw [accept_of_ne_nil hnone] at h
        exact hold h
  · rintro ⟨p, hp⟩
    obtain ⟨after, hafter⟩ := hp.exists_after
    rw [hafter]
    simp

/-- Accepted before position `n` is what has been accepted at an earlier position. -/
theorem mem_accepted_take_iff {n : Nat} {d : Definition m} :
    d ∈ accepted (ds.take n) ↔ ∃ p < n, AcceptedAt ds p d := by
  simp only [mem_accepted_iff, acceptedAt_take_iff]

theorem mem_of_mem_accepted {d : Definition m} (h : d ∈ accepted ds) : d ∈ ds := by
  obtain ⟨p, hd, -⟩ := mem_accepted_iff.1 h
  exact List.mem_of_getElem? hd

/-- A refused definition leaves no trace among the accepted ones. -/
theorem accepted_of_refused {before after : List (Definition m)} {d : Definition m}
    (h : conflictFindings (accepted before) d ≠ []) :
    accepted (before ++ d :: after) = accepted (before ++ after) := by
  rw [accepted_append, List.foldl_cons, accept_of_ne_nil h, ← accepted_append]

/-- Compatible definitions are accepted one and all. -/
theorem Compatible.acceptedAt (h : Compatible ds) {p : Nat} {d : Definition m}
    (hd : ds[p]? = some d) : AcceptedAt ds p d := by
  have hsplit : ds.take p ++ [d] ++ ds.drop (p + 1) = ds := by
    rw [List.append_assoc, List.singleton_append, take_append_cons_drop hd]
  have hfirst : Compatible (ds.take p ++ [d]) := by
    rw [← hsplit] at h
    exact (List.pairwise_append.1 h).1
  obtain ⟨hbefore, hnone⟩ := compatible_append_singleton.1 hfirst
  refine ⟨hd, ?_⟩
  rwa [accepted_of_compatible hbefore]

end Definition

namespace Registry

/-- When the definition at position `p` has its turn, nothing stands against it, so it is registered. -/
def RegisteredAt (builtinSource : String) (diagnostics : List Diagnostic) (ds : List (Definition m))
    (p : Nat) (d : Definition m) : Prop :=
  ds[p]? = some d ∧
    ((ofDefinitions builtinSource (ds.take p) diagnostics).index d.category).conflicts d = []

/-- When the definition at position `p` has its turn, something stands against it, so it is refused. -/
def RefusedAt (builtinSource : String) (diagnostics : List Diagnostic) (ds : List (Definition m))
    (p : Nat) (d : Definition m) : Prop :=
  ds[p]? = some d ∧
    ((ofDefinitions builtinSource (ds.take p) diagnostics).index d.category).conflicts d ≠ []

variable {builtinSource : String} {diagnostics : List Diagnostic} {ds : List (Definition m)}
  {p : Nat} {d : Definition m}

theorem registeredAt_iff :
    RegisteredAt builtinSource diagnostics ds p d ↔ Definition.AcceptedAt ds p d := by
  rw [RegisteredAt, (ofDefinitions_holds builtinSource (ds.take p) diagnostics).conflicts d,
    Definition.AcceptedAt]

theorem RefusedAt.accepted_eraseIdx (h : RefusedAt builtinSource diagnostics ds p d) :
    Definition.accepted ds = Definition.accepted (ds.eraseIdx p) := by
  obtain ⟨hd, hconflict⟩ := h
  rw [(ofDefinitions_holds builtinSource (ds.take p) diagnostics).conflicts d] at hconflict
  rw [List.eraseIdx_eq_take_drop_succ]
  calc Definition.accepted ds
      = Definition.accepted (ds.take p ++ d :: ds.drop (p + 1)) := by
        rw [Definition.take_append_cons_drop hd]
    _ = Definition.accepted (ds.take p ++ ds.drop (p + 1)) :=
        Definition.accepted_of_refused hconflict

end Registry

end SchemaRegistry
