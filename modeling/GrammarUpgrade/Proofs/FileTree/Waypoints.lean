import GrammarUpgrade.Proofs.FileTree.Creating

/-!
# Waypoints

Following a path looks at one location after the other.  What is anywhere else has no part in
what the path leads to or reads as, and a location that is no directory ends the way.  The main
statements are `SameApart.readText_eq` and `exists_readText_of_mem_waypoints`.
-/

namespace GrammarUpgrade.FileTree

variable {tree first second : FileTree} {path : String} {here place location : Location}
  {names : List String}

/-- The locations that are looked at when names are followed. -/
def waypoints (tree : FileTree) : Location → List String → List Location
  | here, [] => [here]
  | here, name :: rest =>
      here :: match tree.step here name with
        | .error _ => []
        | .ok next => tree.waypoints next rest

/-- The locations that are looked at when a path is followed. -/
def waypointsOf (tree : FileTree) (path : String) : List Location :=
  tree.waypoints (tree.start path) (Path.parts path)

theorem mem_waypoints_self : here ∈ tree.waypoints here names := by
  cases names with
  | nil => exact List.mem_singleton_self here
  | cons name rest => exact List.mem_cons_self

/-- Names are followed alike in trees that have the same on the way. -/
theorem walk_congr
    (same : ∀ location ∈ first.waypoints here names,
      first.lookup location = second.lookup location) :
    second.walk here names = first.walk here names ∧
      ∀ location, first.walk here names = .ok location →
        first.lookup location = second.lookup location := by
  induction names generalizing here with
  | nil =>
      refine ⟨rfl, ?_⟩
      rintro _ ⟨⟩
      exact same here mem_waypoints_self
  | cons name rest ih =>
      rw [waypoints, List.forall_mem_cons] at same
      obtain ⟨sameHere, same⟩ := same
      have stepped : second.step here name = first.step here name := by
        rw [step, step, sameHere]
      rw [walk, walk, stepped]
      cases led : first.step here name with
      | error failure => exact ⟨rfl, fun _ found => by cases found⟩
      | ok next =>
          rw [led] at same
          exact ih same

/-- A path reads the same in trees that have the same on its way. -/
theorem readText_congr (start : first.start path = second.start path)
    (same : ∀ location ∈ first.waypointsOf path,
      first.lookup location = second.lookup location) :
    first.readText path = second.readText path := by
  obtain ⟨walked, looked⟩ := walk_congr same
  have resolved : second.resolve path = first.resolve path := by
    rw [resolve, resolve, ← start, walked]
    cases led : first.walk (first.start path) (Path.parts path) with
    | error failure => rfl
    | ok location => simp only [looked location led]
  have found : second.find path = first.find path := by
    rw [find, find, resolved]
    cases led : first.resolve path with
    | error failure => rfl
    | ok location =>
        have reached := (resolve_eq_ok_iff.mp led).2.1
        simp only [looked location reached]
  rw [readText, readText, found]

/-! ## Off the way -/

/-- A step leads below a place only from below it, or to the place itself. -/
theorem eq_of_prefix_of_step {name : String} (stepped : tree.step here name = .ok location)
    (above : ¬ place <+: here) (below : place <+: location) : location = place := by
  rw [step] at stepped
  split at stepped
  · cases stepped
  · cases stepped
  · split at stepped
    · cases stepped
      exact absurd below above
    split at stepped
    · cases stepped
      exact absurd (below.trans (List.dropLast_prefix here)) above
    split at stepped
    · cases stepped
    · cases stepped
      rcases List.prefix_concat_iff.mp below with same | inside
      · exact same.symm
      · exact absurd inside above

/-- A way that does not touch a place does not lead below it. -/
theorem not_prefix_of_mem_waypoints (above : ¬ place <+: here)
    (avoided : place ∉ tree.waypoints here names) :
    ∀ location ∈ tree.waypoints here names, ¬ place <+: location := by
  induction names generalizing here with
  | nil =>
      intro location member
      rw [List.mem_singleton.mp member]
      exact above
  | cons name rest ih =>
      rw [waypoints, List.forall_mem_cons]
      refine ⟨above, ?_⟩
      cases led : tree.step here name with
      | error failure => exact nofun
      | ok next =>
          rw [waypoints, led] at avoided
          have avoided : place ∉ tree.waypoints next rest :=
            fun member => avoided (List.mem_cons_of_mem here member)
          refine ih ?_ avoided
          intro below
          apply avoided
          rw [← eq_of_prefix_of_step led above below]
          exact mem_waypoints_self

/-- Two trees that are the same but for one place and what is below it. -/
structure SameApart (place : Location) (first second : FileTree) : Prop where
  workingDirectory : first.workingDirectory = second.workingDirectory
  elsewhere : ∀ location, ¬ place <+: location → first.lookup location = second.lookup location

/-- Putting something at a place changes nothing apart from it. -/
theorem sameApart_set (tree : FileTree) (place : Location) (node : Node) :
    SameApart place tree (tree.set place node) := by
  refine ⟨rfl, ?_⟩
  intro location elsewhere
  have different : location ≠ place := by
    rintro rfl
    exact elsewhere List.prefix_rfl
  exact (lookup_set_of_ne tree node different).symm

/-- What is at a place below the start of a path has no part in a way that does not touch
it. -/
theorem SameApart.readText_eq (same : SameApart place first second)
    (above : ¬ place <+: first.start path) (avoided : place ∉ first.waypointsOf path) :
    first.readText path = second.readText path := by
  have start : first.start path = second.start path := by
    rw [FileTree.start, FileTree.start, same.workingDirectory]
  refine readText_congr start ?_
  intro location member
  exact same.elsewhere location (not_prefix_of_mem_waypoints above avoided location member)

/-! ## The end of the way -/

/-- A place that is no directory ends the way that touches it. -/
theorem walk_of_mem_waypoints (blocked : tree.lookup place ≠ some .directory)
    (touched : place ∈ tree.waypoints here names) :
    tree.walk here names = .ok place ∨ ∃ failure, tree.walk here names = .error failure := by
  induction names generalizing here with
  | nil =>
      rw [List.mem_singleton.mp touched]
      exact .inl rfl
  | cons name rest ih =>
      rw [walk]
      cases led : tree.step here name with
      | error failure => exact .inr ⟨failure, rfl⟩
      | ok next =>
          rw [waypoints, led] at touched
          rcases List.mem_cons.mp touched with rfl | touched
          · exact absurd (lookup_of_step led) blocked
          · exact ih touched

/-- A path whose way touches a place that is no directory leads to that place, or it cannot
be read. -/
theorem exists_readText_of_mem_waypoints (blocked : tree.lookup place ≠ some .directory)
    (touched : place ∈ tree.waypointsOf path) :
    tree.resolve path = .ok place ∨ ∃ failure, tree.readText path = .error failure := by
  cases led : tree.resolve path with
  | error failure =>
      refine .inr ⟨failure, ?_⟩
      rw [readText, find, led]
  | ok location =>
      have walked := (resolve_eq_ok_iff.mp led).2.1
      rcases walk_of_mem_waypoints blocked touched with ended | ⟨failure, ended⟩
      · rw [ended] at walked
        cases walked
        exact .inl rfl
      · rw [ended] at walked
        cases walked

end GrammarUpgrade.FileTree
