/-!
# The example of a settings file

The example shows every setting with its default, so that reading it changes
nothing.
-/

set_option autoImplicit false

namespace LowerComments.Settings

/-- The text of the example. -/
def exampleText : String :=
  "# commentcase example configuration.\n" ++
  "#\n" ++
  "# This file is regenerated when missing and is never read back.\n" ++
  "# Copy the settings you want to change into `commentcase.local`\n" ++
  "# in the same directory.\n" ++
  "\n" ++
  "[run]\n" ++
  "# What happens when a file cannot be read or written:\n" ++
  "#   \"abort\"    stop at the first failure (files already rewritten stay rewritten)\n" ++
  "#   \"continue\" process the remaining files, then exit with an error\n" ++
  "on_error = \"abort\"\n" ++
  "\n" ++
  "# How rewritten content is stored:\n" ++
  "#   \"in_place\" truncate and rewrite the file (an interrupted write can truncate it)\n" ++
  "#   \"atomic\"   write a temporary file next to it, then rename it over the original\n" ++
  "write_strategy = \"in_place\"\n" ++
  "\n" ++
  "[output]\n" ++
  "# Hide notes and the closing summary. `Processed:` lines are always printed.\n" ++
  "quiet = false\n"

end LowerComments.Settings
