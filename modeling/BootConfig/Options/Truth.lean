import BootConfig.Text.Blank
import BootConfig.Text.Case
import BootConfig.Text.Quoted

/-!
# Truth words

The words that a switch on the command line takes as its value, in any case and with blanks around
them.
-/

namespace BootConfig.Truth

/-- The truth value that a word stands for. -/
def ofWord? (s : String) : Option Bool :=
  ((Text.ofString s).trim.toLower.toString?).bind fun word =>
    if ["1", "t", "true", "yes", "on"].contains word then some true
    else if ["0", "f", "false", "no", "off"].contains word then some false
    else none

/-- The complaint about a word that is none of them. -/
def complaint (s : String) : String := s!"invalid boolean value: {Quoted.ofString s}"

end BootConfig.Truth
