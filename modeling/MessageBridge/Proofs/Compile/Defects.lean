import MessageBridge.Proofs.Compile.Checks

/-!
# The first defect of a table

A table that is rejected is rejected for its first defect. The checks of an entry only look at the
entry itself, at the entries before it and, for a route, at the groups; so what is found at an entry
does not depend on anything that comes later, and everything before it is a table that compiles.
-/

namespace MessageBridge.Environment

open Check

variable {env : Environment} {e : CompileError}

/-! ## Owners -/

theorem owner_targetChecks {owner : Owner} {p : TargetPoint} {c : Check}
    (hc : c ∈ env.targetChecks owner p) : c.error.owner = owner := by
  simp only [targetChecks, List.mem_cons, List.not_mem_nil, or_false] at hc
  rcases hc with rfl | rfl <;> rfl

theorem owner_groupChecks {earlier : List TargetGroup} {g : TargetGroup} {c : Check}
    (hc : c ∈ env.groupChecks earlier g) : c.error.owner = .group g.name := by
  simp only [groupChecks, List.mem_cons, List.mem_flatMap] at hc
  rcases hc with rfl | rfl | ⟨p, -, hc⟩
  · rfl
  · rfl
  · exact owner_targetChecks hc

theorem owner_destinationChecks {groups : List TargetGroup} {r : RouteSpec} {c : Check}
    (hc : c ∈ env.destinationChecks groups r) : c.error.owner = .route r.name := by
  rw [destinationChecks] at hc
  split at hc
  · exact owner_targetChecks hc
  all_goals
    rw [List.mem_singleton] at hc
    rw [hc]
    rfl

theorem owner_routeChecks {groups : List TargetGroup} {earlier : List RouteSpec} {r : RouteSpec}
    {c : Check} (hc : c ∈ env.routeChecks groups earlier r) : c.error.owner = .route r.name := by
  simp only [routeChecks, partChecks, List.mem_cons, List.mem_append] at hc
  rcases hc with rfl | source | destination | filter | projection | mode
  · rfl
  · simp only [sourceChecks, List.mem_cons, List.not_mem_nil, or_false] at source
    rcases source with rfl | rfl <;> rfl
  · exact owner_destinationChecks destination
  · obtain ⟨name, -, rfl⟩ := List.mem_map.mp filter
    rfl
  · rw [projectionChecks] at projection
    split at projection
    · cases projection
    · simp only [List.mem_cons, List.not_mem_nil, or_false] at projection
      rcases projection with rfl | rfl <;> rfl
  · rw [modeChecks] at mode
    split at mode
    · rw [List.mem_singleton] at mode
      rw [mode]
      rfl
    · simp only [List.mem_cons, List.not_mem_nil, or_false] at mode
      rcases mode with rfl | rfl | rfl <;> rfl

/-! ## Rejection -/

/-- A table is rejected for its first check that fails. -/
theorem compile_eq_error_iff (env : Environment) (table : RouteTable) :
    env.compile table = .error e ↔ FirstFails (env.checks table) e := by
  have decided := compile_decides env table
  refine ⟨fun rejected ↦ ?_, fun fails ↦ ?_⟩
  · rwa [rejected, decide_error_iff] at decided
  · cases compiled : env.compile table with
    | ok routes =>
      rw [compiled, decide_ok_iff] at decided
      exact absurd decided.1 fails.not_allPass
    | error e' =>
      rw [compiled, decide_error_iff] at decided
      rw [decided.unique fails]

theorem exists_of_allPass {table : RouteTable} (pass : AllPass (env.checks table)) :
    ∃ routes, env.compile table = .ok routes := by
  cases compiled : env.compile table with
  | ok routes => exact ⟨routes, rfl⟩
  | error e => exact absurd pass ((compile_eq_error_iff env table).mp compiled).not_allPass

/-- The entry of a table that an error is about: a group or a route whose checks fail with that
error, while the table cut just before it compiles, and whatever comes after it makes no
difference. -/
inductive FirstDefect (env : Environment) (table : RouteTable) (e : CompileError) : Prop where
  | group {before after : List TargetGroup} {g : TargetGroup}
      (entry : table.groups = before ++ g :: after)
      (fails : FirstFails (env.groupChecks before g) e)
      (owner : e.owner = .group g.name)
      (cut : ∃ routes, env.compile ⟨[], before⟩ = .ok routes)
      (lasting : ∀ after routes, env.compile ⟨routes, before ++ g :: after⟩ = .error e)
  | route {before after : List RouteSpec} {r : RouteSpec}
      (entry : table.routes = before ++ r :: after)
      (fails : FirstFails (env.routeChecks table.groups before r) e)
      (owner : e.owner = .route r.name)
      (cut : ∃ routes, env.compile ⟨before, table.groups⟩ = .ok routes)
      (lasting : ∀ after, env.compile ⟨before ++ r :: after, table.groups⟩ = .error e)

theorem firstDefect_of_firstFails {table : RouteTable} (fails : FirstFails (env.checks table) e) :
    FirstDefect env table e := by
  obtain in_groups | ⟨groups_pass, in_routes⟩ := firstFails_append.mp fails
  · obtain ⟨before, g, after, split, pass, here⟩ := in_groups.entry
    obtain ⟨c, hc, -, rfl⟩ := here.mem
    refine .group split here (owner_groupChecks hc) (exists_of_allPass ?_) fun after routes ↦ ?_
    · exact allPass_append.mpr ⟨pass, allPass_nil⟩
    · exact (compile_eq_error_iff env _).mpr ((here.of_entry pass after).append_right _)
  · obtain ⟨before, r, after, split, pass, here⟩ := in_routes.entry
    obtain ⟨c, hc, -, rfl⟩ := here.mem
    refine .route split here (owner_routeChecks hc) (exists_of_allPass ?_) fun after ↦ ?_
    · exact allPass_append.mpr ⟨groups_pass, pass⟩
    · exact (compile_eq_error_iff env _).mpr ((here.of_entry pass after).append_left groups_pass)

/-- **The first defect wins.** A table is rejected just when some check fails, with the error of
the first that does; this error names the entry it is found at, nothing after that entry has a say
in it, and everything before that entry compiles. -/
theorem first_defect_wins (env : Environment) (table : RouteTable) (e : CompileError) :
    (env.compile table = .error e ↔ FirstFails (env.checks table) e) ∧
      (env.compile table = .error e → FirstDefect env table e) :=
  ⟨compile_eq_error_iff env table, fun rejected ↦
    firstDefect_of_firstFails ((compile_eq_error_iff env table).mp rejected)⟩

/-- A route without defects, one whose filter is not there and whose mode is none, and one that
takes the name of the first. -/
def threeRoutes : RouteTable where
  routes := [.direct "first" ⟨"bus", "in"⟩ ⟨"bus", "a"⟩,
    (RouteSpec.direct "second" ⟨"bus", "in"⟩ ⟨"bus", "b"⟩).withFilters ["recent_1h", "odd"]
      |>.withMode (.drop none none),
    .direct "first" ⟨"bus", "out"⟩ ⟨"bus", "a"⟩]

/-- Of three defects the one that is found is the filter of the second route. -/
theorem first_defect_of_three :
    ofOneBus.compile threeRoutes = .error (.unknownFilter "second" "odd") ∧
      FirstFails (ofOneBus.checks threeRoutes) (.unknownFilter "second" "odd") ∧
      FirstDefect ofOneBus threeRoutes (.unknownFilter "second" "odd") := by
  obtain ⟨found, names⟩ := first_defect_wins ofOneBus threeRoutes (.unknownFilter "second" "odd")
  exact ⟨rfl, found.mp rfl, names rfl⟩

end MessageBridge.Environment
