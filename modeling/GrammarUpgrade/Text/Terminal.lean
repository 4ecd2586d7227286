import GrammarUpgrade.Text.Characters

/-!
# Text for a terminal

Some controls are commands to a terminal: the bell, the backspace, the form feed,
the escape, the delete and the controls beyond ASCII.  In a text that a terminal may
show they are spelled out by their code points, so that the text never holds a
command.
-/

namespace GrammarUpgrade.Text

/-- Whether a character is a command to a terminal. -/
def isTerminalCommand (c : Char) : Bool :=
  c.toNat = 0x07 || c.toNat = 0x08 || c.toNat = 0x0C || c.toNat = 0x1B ||
    (0x7F ≤ c.toNat && c.toNat ≤ 0x9F)

/-- A command spelled out, in two digits when it is in ASCII. -/
def spelledCommand (c : Char) : List Char :=
  if c.toNat < 0x80 then
    ['\\', 'x', Nat.digitChar (c.toNat / 16), Nat.digitChar (c.toNat % 16)]
  else codePointEscape c

/-- A character in a text for a terminal. -/
def terminalChar (c : Char) : List Char :=
  if isTerminalCommand c then spelledCommand c else [c]

/-- A text with its commands spelled out. -/
def forTerminal (text : String) : String :=
  String.ofList (text.toList.flatMap terminalChar)

/-- No command is needed to spell one out. -/
theorem isTerminalCommand_eq_false_of_mem_spelledCommand {c d : Char}
    (command : isTerminalCommand c = true) (mem : d ∈ spelledCommand c) :
    isTerminalCommand d = false := by
  have bound : c.toNat < 0xA0 := by
    simp only [isTerminalCommand, Bool.or_eq_true, Bool.and_eq_true,
      decide_eq_true_eq] at command
    omega
  have all : ∀ n < 0xA0,
      (spelledCommand (Char.ofNat n)).all (fun d => !isTerminalCommand d) := by
    decide +kernel
  have here := all c.toNat bound
  rw [Char.ofNat_toNat, List.all_eq_true] at here
  simpa using here d mem

/-- A text for a terminal holds no command. -/
theorem isTerminalCommand_eq_false_of_mem_forTerminal {text : String} {c : Char}
    (mem : c ∈ (forTerminal text).toList) : isTerminalCommand c = false := by
  simp only [forTerminal, String.toList_ofList, List.mem_flatMap] at mem
  obtain ⟨given, _, mem⟩ := mem
  unfold terminalChar at mem
  split at mem
  · exact isTerminalCommand_eq_false_of_mem_spelledCommand ‹_› mem
  · obtain rfl := List.mem_singleton.mp mem
    simpa using ‹¬isTerminalCommand c = true›

end GrammarUpgrade.Text
