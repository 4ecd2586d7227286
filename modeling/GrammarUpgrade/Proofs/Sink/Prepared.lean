import GrammarUpgrade.Proofs.FileTree.Joining
import GrammarUpgrade.Proofs.Sink.Store

/-!
# Prepared directories

The sink that writes to a destination is prepared by creating its directory.  The directory
may be there or not, in whole or in part, and its path may be spelled with dots and with
slashes at its end.  The main statement, `prepared_directory`, says what a preparation leaves
alone, whether it succeeds or not, and what it ensures if it succeeds.
-/

namespace GrammarUpgrade.Sink

/-- What a write to a file in a directory is answered with. -/
theorem exchange_write_name (destination : Destination) {document : Document}
    {stage : Stage FileTree} {location : Location} (contents : String)
    (led : stage.2.directoryAt? destination.directory = some location)
    (isDirectory : stage.2.lookup location = some .directory)
    (isName : Path.IsName (destination.fileName document))
    (short : (destination.fileName document).utf8ByteSize ≤ FileTree.maxNameBytes)
    (fits : (destination.path document).utf8ByteSize < FileTree.maxPathBytes) :
    ((directory destination).exchange (.write document contents) stage).answer =
      if stage.2.lookup (location ++ [destination.fileName document]) = some .directory then
        .error (.write (destination.path document) .isADirectory)
      else .ok [destination.path document] := by
  rw [(exchange_write_eq destination document contents stage).1, FileTree.writeText,
    Destination.path, FileTree.writable_join isName led isDirectory short fits]
  by_cases taken :
      stage.2.lookup (location ++ [destination.fileName document]) = some .directory
  · rw [if_pos taken, if_pos taken]
    rfl
  · rw [if_neg taken, if_neg taken]
    rfl

/-- A preparation, whether it succeeds or not, adds no more than missing directories along
the path of the destination.  When it succeeds, that path leads to a directory, and another
preparation succeeds and changes nothing.  As long as nothing is taken away, and no request to
the sink takes anything away, a document with a plain file name can then be written unless
there is a directory under that name. -/
theorem prepared_directory (destination : Destination) (log : Log) (tree : FileTree)
    (standing : destination.directory = "" →
      tree.lookup tree.workingDirectory = some .directory) :
    let sink := directory destination
    let first := sink.exchange .prepare (log, tree)
    let prepared := first.after.2
    tree.MakesAlong (destination.directory :: Path.ancestors destination.directory) prepared ∧
      (∀ requests, prepared.Keeps (sink.stageAfter requests first.after).2) ∧
      (first.answer.isOk = true → ∃ location,
        prepared.directoryAt? destination.directory = some location ∧
          prepared.lookup location = some .directory ∧
          (sink.exchange .prepare first.after).answer = .ok [] ∧
          (sink.exchange .prepare first.after).after.2 = prepared ∧
          ∀ (later : Stage FileTree) (document : Document) (contents : String),
            let name := destination.fileName document
            prepared.Keeps later.2 → Path.IsName name →
            name.utf8ByteSize ≤ FileTree.maxNameBytes →
            (destination.path document).utf8ByteSize < FileTree.maxPathBytes →
            ((sink.exchange (.write document contents) later).answer.isOk = true ↔
              later.2.lookup (location ++ [name]) ≠ some .directory)) := by
  obtain ⟨answered, changed⟩ := exchange_prepare_eq destination (log, tree)
  have kept (requests : List Request) := stageAfter_directory_keeps destination requests
    ((directory destination).exchange .prepare (log, tree)).after
  dsimp only
  -- From here on only what has been created counts, not how the sink was asked.
  generalize (directory destination).exchange .prepare (log, tree) = first
    at answered changed kept ⊢
  refine ⟨changed ▸ tree.createDirectories_makesAlong destination.directory, kept, ?_⟩
  intro succeeds
  have created : tree.createDirectories destination.directory = (.ok (), first.after.2) := by
    refine Prod.ext ?_ changed.symm
    rw [answered] at succeeds
    cases ended : (tree.createDirectories destination.directory).1 with
    | error cause =>
        rw [ended] at succeeds
        cases succeeds
    | ok => rfl
  obtain ⟨location, led, isDirectory⟩ := FileTree.exists_directoryAt? created standing
  obtain ⟨answeredAgain, changedAgain⟩ := exchange_prepare_eq destination first.after
  rw [FileTree.createDirectories_again created] at answeredAgain changedAgain
  refine ⟨location, led, isDirectory, answeredAgain, changedAgain, ?_⟩
  intro later document contents keeps isName short fits
  rw [exchange_write_name destination contents (keeps.directoryAt? led isDirectory)
    (keeps.directories isDirectory) isName short fits]
  split
  · rename_i taken
    exact iff_of_false (by rintro ⟨⟩) (not_not_intro taken)
  · rename_i free
    exact iff_of_true rfl free

/-- A missing directory that the path only passes through is made, and a document is refused
where there is a directory under its name. -/
theorem prepared_directory_detour :
    let destination : Destination := ⟨"out/../new/", "types.json", "page.json", "page.json"⟩
    let initial := (FileTree.fresh.createDirectories "new/page.json").2
    let sink : Sink (StateM FileTree) := directory destination
    let first := sink.exchange .prepare ([], initial)
    first.answer.isOk = true ∧ first.after.2.lookup ["work", "out"] = some .directory ∧
      (sink.exchange (.write .types "new") first.after).answer.isOk = true ∧
      (sink.exchange (.write .properties "new") first.after).answer.isOk = false := by
  intro destination initial sink first
  have succeeds : first.answer.isOk = true := by decide +kernel
  obtain ⟨_, kept, ensured⟩ := prepared_directory destination [] initial
    fun empty => absurd empty (by decide)
  obtain ⟨location, led, _, _, _, written⟩ := ensured succeeds
  obtain rfl : location = ["work", "new"] :=
    Option.some.inj (led.symm.trans (by decide +kernel))
  have accepted := written _ .types "new" (kept []) (by decide) (by decide) (by decide +kernel)
  have refused := written _ .properties "new" (kept []) (by decide) (by decide)
    (by decide +kernel)
  refine ⟨succeeds, by decide +kernel, accepted.mpr (by decide +kernel), ?_⟩
  exact Bool.eq_false_iff.mpr (mt refused.mp (not_not_intro (by decide +kernel)))

end GrammarUpgrade.Sink
