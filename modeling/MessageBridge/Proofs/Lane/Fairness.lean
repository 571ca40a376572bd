import Mathlib.Algebra.Order.Floor.Div
import Mathlib.Data.Int.CardIntervalMod
import MessageBridge.Proofs.Lane.Ledger

/-!
# Lanes take turns

All who submit to a pool share one counter, which says whose turn it is. Only a submission moves it,
by one, and it moves it whether the lane takes the job or not. So the order in which lanes are
picked does not depend on who submits or on what becomes of the jobs (`Pool.Picks`), and how often
each of them was picked is a matter of counting residues (`Pool.Fair`). The counter has 64 bits and
wraps. After that it still picks a lane that is there, but where the number of lanes does not divide
its range, the round in which it wraps is cut short.
-/

namespace MessageBridge

universe u

variable {α : Type u}

/-! ## Rounds -/

/-- Every lane has its share of the first `m` turns, up to one turn. -/
theorem count_turns {lanes i : Nat} (here : i < lanes) (m : Nat) :
    ((List.range m).map (· % lanes)).count i = (m - i) ⌈/⌉ lanes := by
  have some_lane : 0 < lanes := Nat.zero_lt_of_lt here
  have residues : ((List.range m).map (· % lanes)).count i = m.count (· ≡ i [MOD lanes]) := by
    rw [List.count_eq_countP, List.countP_map, Nat.count]
    refine List.countP_congr fun k _ ↦ ?_
    simp [Nat.ModEq, Nat.mod_eq_of_lt here]
  rw [residues, Nat.count_modEq_card m some_lane, Nat.mod_eq_of_lt here,
    Nat.ceilDiv_eq_add_pred_div]
  -- whole rounds, and the turns that follow them
  obtain ⟨rounds, rest, short, rfl⟩ : ∃ rounds rest, rest < lanes ∧ m = lanes * rounds + rest :=
    ⟨m / lanes, m % lanes, Nat.mod_lt m some_lane, (Nat.div_add_mod m lanes).symm⟩
  rw [Nat.mul_add_mod, Nat.mod_eq_of_lt short, Nat.mul_add_div some_lane, Nat.div_eq_of_lt short]
  split
  · rename_i had
    have more : lanes * rounds + rest - i + lanes - 1 =
        lanes * (rounds + 1) + (rest - i - 1) := by
      rw [Nat.mul_add_one]
      omega
    rw [more, Nat.mul_add_div some_lane, Nat.div_eq_of_lt (by omega)]
  · rename_i not_yet
    cases rounds with
    | zero => rw [Nat.div_eq_of_lt (by omega)]
    | succ rounds =>
      have less : lanes * (rounds + 1) + rest - i + lanes - 1 =
          lanes * (rounds + 1) + (rest + lanes - 1 - i) := by
        rw [Nat.mul_add_one]
        omega
      rw [less, Nat.mul_add_div some_lane, Nat.div_eq_of_lt (by omega)]

/-! ## Picks -/

namespace Pool

variable {p p' : Pool α} {picked more : List Nat}

/-- From one state of a pool to another one these lanes are picked, each in its turn. -/
structure Picks (p : Pool α) (picked : List Nat) (p' : Pool α) : Prop where
  lanes : p'.lanes.length = p.lanes.length
  counter : p'.picks = p.picks + UInt64.ofNat picked.length
  turns : picked = (List.range picked.length).map fun k ↦
    (p.picks.toNat + k) % 2 ^ 64 % p.lanes.length

/-- A change that leaves the counter alone picks no lane. -/
theorem picks_nil (lanes : p'.lanes.length = p.lanes.length) (counter : p'.picks = p.picks) :
    p.Picks [] p' :=
  ⟨lanes, counter.trans (UInt64.add_zero _).symm, rfl⟩

theorem picks_setLane (i : Nat) (l : Lane α) (p : Pool α) : p.Picks [] (p.setLane i l) :=
  picks_nil List.length_set rfl

theorem picks_map (f : Lane α → Lane α) (p : Pool α) :
    p.Picks [] { p with lanes := p.lanes.map f } := picks_nil (List.length_map f) rfl

/-! What a worker does picks no lane. -/

theorem picks_take? {i : Nat} {r : α × Pool α} (taken : p.take? i = some r) : p.Picks [] r.2 := by
  obtain ⟨l, l', -, -, -, done⟩ := take?_eq_some.mp taken
  exact done ▸ picks_setLane i l' p

theorem picks_finish? {i : Nat} {r : α × Pool α} (finished : p.finish? i = some r) :
    p.Picks [] r.2 := by
  obtain ⟨l, l', -, -, done⟩ := finish?_eq_some.mp finished
  exact done ▸ picks_setLane i l' p

theorem picks_crash? {i : Nat} {r : List α × Pool α} (crashed : p.crash? i = some r) :
    p.Picks [] r.2 := by
  obtain ⟨l, l', -, -, done⟩ := crash?_eq_some.mp crashed
  exact done ▸ picks_setLane i l' p

theorem picks_drain? {i : Nat} {r : List α × Pool α} (drained : p.drain? i = some r) :
    p.Picks [] r.2 := by
  obtain ⟨l, l', -, -, -, done⟩ := drain?_eq_some.mp drained
  exact done ▸ picks_setLane i l' p

theorem picks_end? {i : Nat} (ended : p.end? i = some p') : p.Picks [] p' := by
  obtain ⟨l, l', -, -, done⟩ := end?_eq_some.mp ended
  exact done ▸ picks_setLane i l' p

/-- A submission picks the lane whose turn it is, also if that lane refuses. -/
theorem picks_submit (a : α) (p : Pool α) : p.Picks [p.turn] (p.submit a).1 := by
  have turn : [p.turn] = (List.range 1).map fun k ↦
      (p.picks.toNat + k) % 2 ^ 64 % p.lanes.length := by
    simp [turn, pick, Nat.mod_eq_of_lt p.picks.toNat_lt]
  obtain ⟨l, l', -, -, done⟩ | ⟨-, done⟩ := submit_cases a p
  · rw [done]
    exact ⟨List.length_set, rfl, turn⟩
  · rw [done]
    exact ⟨rfl, rfl, turn⟩

theorem Picks.trans {q : Pool α} (first : p.Picks picked p') (last : p'.Picks more q) :
    p.Picks (picked ++ more) q := by
  refine ⟨last.lanes.trans first.lanes, ?_, ?_⟩
  · rw [last.counter, first.counter, List.length_append, UInt64.ofNat_add, UInt64.add_assoc]
  · rw [List.length_append, List.range_add, List.map_append, ← first.turns, List.map_map]
    refine congrArg (picked ++ ·) (last.turns.trans (List.map_congr_left fun k _ ↦ ?_))
    have counter : p'.picks.toNat = (p.picks.toNat + picked.length) % 2 ^ 64 := by
      rw [first.counter, UInt64.toNat_add, UInt64.toNat_ofNat', Nat.add_mod_mod]
    rw [Function.comp, counter, first.lanes, Nat.mod_add_mod, Nat.add_assoc]

/-! ## Fairness -/

/-- The lanes that were picked from some value of the counter on are picked fairly. -/
structure Fair (lanes : Nat) (counter : UInt64) (picked : List Nat) : Prop where
  /-- They take turns. -/
  turns : ∀ k < picked.length, picked[k]? = some ((counter.toNat + k) % 2 ^ 64 % lanes)
  /-- A lane that is picked is there. -/
  below : ∀ i ∈ picked, i < lanes
  /-- As long as the counter of a new pool has not wrapped, every lane has its share. -/
  share : counter = 0 → ∀ m < 2 ^ 64, m ≤ picked.length → ∀ i < lanes,
    (picked.take m).count i = if i < m then (m - i) ⌈/⌉ lanes else 0
  /-- No lane is ahead of another by more than one. -/
  even : counter = 0 → ∀ m < 2 ^ 64, m ≤ picked.length → ∀ i < lanes, ∀ j < lanes,
    (picked.take m).count i ≤ (picked.take m).count j + 1

/-- The shares of two lanes differ by one at most. -/
theorem ceilDiv_le_succ {lanes i j : Nat} (here : i < lanes) (there : j < lanes) (m : Nat) :
    (m - i) ⌈/⌉ lanes ≤ (m - j) ⌈/⌉ lanes + 1 := by
  have some_lane : 0 < lanes := Nat.zero_lt_of_lt here
  rw [Nat.ceilDiv_eq_add_pred_div, Nat.ceilDiv_eq_add_pred_div, ← Nat.add_div_right _ some_lane]
  exact Nat.div_le_div_right (by omega)

theorem Picks.fair (picks : p.Picks picked p') (some_lane : p.lanes ≠ []) :
    Fair p.lanes.length p.picks picked := by
  have pos : 0 < p.lanes.length := List.length_pos_iff.mpr some_lane
  have share (new : p.picks = 0) (m : Nat) (small : m < 2 ^ 64) (enough : m ≤ picked.length)
      (i : Nat) (here : i < p.lanes.length) :
      (picked.take m).count i = (m - i) ⌈/⌉ p.lanes.length := by
    have first : picked.take m = (List.range m).map (· % p.lanes.length) := by
      rw [picks.turns, new, ← List.map_take, List.take_range, Nat.min_eq_left enough]
      refine List.map_congr_left fun k mem ↦ ?_
      have early : k < 2 ^ 64 := (List.mem_range.mp mem).trans small
      rw [UInt64.toNat_zero, Nat.zero_add, Nat.mod_eq_of_lt early]
    rw [first, count_turns here]
  refine ⟨fun k before ↦ ?_, fun i mem ↦ ?_, fun new m small enough i here ↦ ?_,
    fun new m small enough i here j there ↦ ?_⟩
  · rw [picks.turns, List.getElem?_map, List.getElem?_range before]
    rfl
  · rw [picks.turns] at mem
    obtain ⟨k, -, rfl⟩ := List.mem_map.mp mem
    exact Nat.mod_lt _ pos
  · rw [share new m small enough i here]
    split
    · rfl
    · rename_i late
      rw [Nat.sub_eq_zero_of_le (Nat.le_of_not_lt late), zero_ceilDiv]
  · rw [share new m small enough i here, share new m small enough j there]
    exact ceilDiv_le_succ here there m

end Pool

/-! ## Pools with submitters -/

namespace Service

open Pool (picks_nil picks_map picks_take? picks_finish? picks_crash? picks_drain? picks_end?
  picks_submit)

variable {S S' : Service α} {a : ServiceAction α} {outputs : List (ServiceOutput α)}
  {past : List (Event α)}

/-- A step of a pool with submitters picks a lane just if it is a submission. -/
theorem picks_of_step (step : S.step? a = some (S', outputs)) :
    S.pool.Picks ((issuing ⟨S, a, S', outputs⟩).map Prod.fst) S'.pool := by
  cases a with
  | submit job =>
    have pool : S'.pool = (S.pool.submit ⟨S.next, job⟩).1 := by
      simp only [step?] at step
      split at step <;> cases step <;> rfl
    rw [pool]
    exact picks_submit _ _
  | abandon n =>
    simp only [step?] at step
    split at step <;> cases step
    exact picks_map _ _
  | close =>
    cases step
    exact picks_nil rfl rfl
  | release =>
    simp only [step?] at step
    split at step <;> cases step
    exact picks_map _ _
  | take i =>
    obtain ⟨⟨x, pool⟩, taken, done⟩ := Option.bind_eq_some_iff.mp step
    cases done
    exact picks_take? taken
  | reply i answer =>
    obtain ⟨⟨x, pool⟩, finished, done⟩ := Option.bind_eq_some_iff.mp step
    cases done
    exact picks_finish? finished
  | crash i =>
    obtain ⟨⟨lost, pool⟩, crashed, done⟩ := Option.bind_eq_some_iff.mp step
    cases done
    exact picks_crash? crashed
  | drain i =>
    obtain ⟨⟨refused, pool⟩, drained, done⟩ := Option.bind_eq_some_iff.mp step
    cases done
    exact picks_drain? drained
  | retire i =>
    obtain ⟨pool, ended, done⟩ := Option.bind_eq_some_iff.mp step
    cases done
    exact picks_end? ended

/-- The lanes that were picked, in order. -/
def picked (past : List (Event α)) : List Nat := (issued past).map Prod.fst

theorem picks_of_exec (exec : Execution step? S past S') : S.pool.Picks (picked past) S'.pool := by
  induction exec with
  | refl => exact picks_nil rfl rfl
  | snoc _ step ih =>
    rw [picked, issued_concat, List.map_append]
    exact ih.trans (picks_of_step step)

end Service

end MessageBridge
