import MessageBridge.Proofs.Named
import MessageBridge.Rehearsal.World

/-!
# What closing a bus releases

An adapter knows the points of its connector by name, and closing it is a round of calls on the
points that it knows. Failures do not cut the round short: whatever the calls answer, each of them
is made once. But a table keeps one value under each name, so of several points that share a name
the adapter knows the last one only (`Last`), and the others are never closed. A round reaches
every point that the connector handed out exactly if no two of a kind share a name
(`closing_releases`).
-/

namespace MessageBridge

namespace Adapter

variable {σ : Type*} {names ingresses egresses : List String} {name : String} {i : Nat}

/-! ## The points that an adapter knows -/

/-- The place is that of the last point of a name. -/
@[mk_iff] structure Last (names : List String) (name : String) (i : Nat) : Prop where
  here : names[i]? = some name
  final : ∀ j, i < j → names[j]? ≠ some name

theorem last_concat_iff {newest : String} : Last (names ++ [newest]) name i ↔
    if newest = name then i = names.length else Last names name i := by
  have entry (j : Nat) : (names ++ [newest])[j]? =
      if j = names.length then some newest else names[j]? := by grind
  constructor
  · rintro ⟨here, final⟩
    have at_end := final names.length
    split
    · grind
    · constructor
      · grind
      · intro j
        have := final j
        grind
  · intro h
    split at h
    · constructor
      · grind
      · intro j
        grind
    · obtain ⟨here, final⟩ := h
      constructor
      · grind
      · intro j
        have := final j
        grind

theorem mem_ofList_zipIdx_iff : (name, i) ∈ Named.ofList names.zipIdx ↔ Last names name i := by
  rw [Named.mem_ofList_iff]
  induction names using List.reverseRecOn with
  | nil => simp [last_iff]
  | append_singleton names newest ih =>
    rw [List.zipIdx_append, List.reverse_append, last_concat_iff, Nat.zero_add,
      List.zipIdx_singleton, List.reverse_singleton, List.singleton_append, Named.get?, ← ih]
    split
    · rw [Option.some_inj, eq_comm]
    · rfl

/-- Every point is the last of its name exactly if no name comes twice. -/
theorem forall_last_iff : (∀ name i, names[i]? = some name → Last names name i) ↔ names.Nodup := by
  rw [List.nodup_iff_getElem?_ne_getElem?]
  constructor
  · intro last i j before bound same
    have there : names[j]? = some names[j] := List.getElem?_eq_getElem bound
    exact (last _ i (same.trans there)).final j before there
  · intro distinct name i here
    refine ⟨here, fun j later there ↦ ?_⟩
    exact distinct i j later (List.getElem?_eq_some_iff.mp there).1 (here.trans there.symm)

/-! ## The round of calls -/

/-- A call that is noted when it is made. -/
def noting (perform : ClosingCall → σ → Except BusError Unit × σ) (c : ClosingCall)
    (s : List ClosingCall × σ) : Except BusError Unit × (List ClosingCall × σ) :=
  let (answer, t) := perform c s.2
  (answer, (s.1 ++ [c], t))

/-- Every call is made once and in order, whatever the others answer. -/
theorem makeCalls_noting (perform : ClosingCall → σ → Except BusError Unit × σ)
    (calls made : List ClosingCall) (s : σ) :
    makeCalls (noting perform) (made, s) calls =
      ((made ++ calls, (makeCalls perform s calls).1), (makeCalls perform s calls).2) := by
  induction calls generalizing made s with
  | nil => simp [makeCalls]
  | cons c rest ih =>
    rw [makeCalls, makeCalls, noting]
    rcases perform c s with ⟨e | ⟨⟩, t⟩
    · simp [ih]
    · simp [ih]

theorem ingress_mem_closingCalls {a : Adapter} :
    .ingress name i ∈ a.closingCalls ↔ (name, i) ∈ a.ingresses := by
  simp [closingCalls]

theorem egress_mem_closingCalls {a : Adapter} :
    .egress name i ∈ a.closingCalls ↔ (name, i) ∈ a.egresses := by
  simp [closingCalls]

theorem connector_mem_closingCalls {a : Adapter} : .connector ∈ a.closingCalls := by
  simp [closingCalls]

theorem nodup_closingCalls {a : Adapter} (ingresses : a.ingresses.Nodup)
    (egresses : a.egresses.Nodup) : a.closingCalls.Nodup := by
  have first : (a.ingresses.map fun p ↦ ClosingCall.ingress p.1 p.2).Nodup :=
    ingresses.map fun p q same ↦
      Prod.ext (ClosingCall.ingress.inj same).1 (ClosingCall.ingress.inj same).2
  have second : (a.egresses.map fun p ↦ ClosingCall.egress p.1 p.2).Nodup :=
    egresses.map fun p q same ↦
      Prod.ext (ClosingCall.egress.inj same).1 (ClosingCall.egress.inj same).2
  refine (first.append second ?_).append (List.nodup_singleton _) (by simp)
  intro c ingress egress
  obtain ⟨p, -, rfl⟩ := List.mem_map.mp ingress
  obtain ⟨q, -, same⟩ := List.mem_map.mp egress
  cases same

theorem nodup_ofList (entries : List (String × Nat)) : (Named.ofList entries).Nodup :=
  (Named.distinct_ofList entries).of_map

/-- **Of the points that a connector hands out, closing reaches the last of each name.** Whatever
the calls do and answer, each of these points is called once and no other point is called; so all
points are closed exactly if no two of a kind share a name. -/
theorem closing_releases (perform : ClosingCall → σ → Except BusError Unit × σ) (s : σ)
    (name : String) (ingresses egresses : List String) :
    ∃ made : List ClosingCall,
      ((ofNames name ingresses egresses).close (noting perform) ([], s)).2.state.1 = made ∧
      made.Nodup ∧
      (∀ point i, .ingress point i ∈ made ↔ Last ingresses point i) ∧
      (∀ point i, .egress point i ∈ made ↔ Last egresses point i) ∧ .connector ∈ made ∧
      (((∀ point i, ingresses[i]? = some point → .ingress point i ∈ made) ∧
        ∀ point i, egresses[i]? = some point → .egress point i ∈ made) ↔
          ingresses.Nodup ∧ egresses.Nodup) := by
  refine ⟨(ofNames name ingresses egresses).closingCalls, ?_,
    nodup_closingCalls (nodup_ofList _) (nodup_ofList _), ?_, ?_, connector_mem_closingCalls, ?_⟩
  · rw [close, if_neg (by exact nofun), makeCalls_noting]
    rfl
  · intro point i
    rw [ingress_mem_closingCalls]
    exact mem_ofList_zipIdx_iff
  · intro point i
    rw [egress_mem_closingCalls]
    exact mem_ofList_zipIdx_iff
  · simp only [ingress_mem_closingCalls, egress_mem_closingCalls, ofNames, mem_ofList_zipIdx_iff,
      forall_last_iff]

end Adapter

/-! ## Points that share a name -/

namespace Rehearsal

/-- A connector with two points of one name of each kind, none of which ever fails. -/
def namesakes : PointConnector where
  name := "p"
  ingresses := [⟨"in", none, none, 0, 0⟩, ⟨"in", none, none, 0, 0⟩]
  egresses := [⟨⟨"out", [], 0, []⟩, none, 0⟩, ⟨⟨"out", [], 0, []⟩, none, 0⟩]
  logged := false
  closeError := none
  closes := 0

/-- The bus over these points is closed without an error, and the first point of each kind was
neither stopped nor closed. -/
theorem namesake_left_open :
    let parts : EngineParts := ⟨.standard, .builtins, .builtins, .empty⟩
    let w := ({ World.empty 0 parts with connectors := [.points namesakes] }.register 0).2
    (w.closeBus 0).1 = .ok () ∧
      (w.closeBus 0).2.connectors = [.points { namesakes with
        ingresses := [⟨"in", none, none, 0, 0⟩, ⟨"in", none, none, 0, 1⟩]
        egresses := [⟨⟨"out", [], 0, []⟩, none, 0⟩, ⟨⟨"out", [], 0, []⟩, none, 1⟩]
        closes := 1 }] :=
  ⟨rfl, rfl⟩

end Rehearsal

end MessageBridge
