import ToolchainUtils.Automation.RenderedCommands

set_option autoImplicit false

namespace ToolchainUtils.Automation.Commands

open PyString ShellLanguage

section Fitting

variable {World Sh : Type} (simple : List Text → Program World Sh)

-- A text that the shell reads as one command, whatever operators it stands between.
def Fits (text : Text) (program : Program World Sh) : Prop := ∃ tokens, lex text = some tokens ∧ PartReads simple tokens program

-- What a Chain writes for a Chain of these texts that is a member of it.
def memberText (texts : List Text) : Text :=
  if 1 < texts.length then inBraces (andText.intercalate texts) else andText.intercalate texts

end Fitting

end ToolchainUtils.Automation.Commands
