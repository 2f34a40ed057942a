import Liquefy.Command.Line

/-!
# Help

What the program says about itself.
-/

namespace Liquefy.Command

/-- The name and version of the program. -/
def versionText : String := "sktl2liquid 0.1.0\n"

/-- Where to find help when the command line was not understood. -/
def usageText : String :=
  "Usage: sktl2liquid [OPTIONS] <COMMAND>\n\nFor more information, try '--help'.\n"

/-- The lines of help on each topic. -/
def helpLines : Stretch → List String
  | .program =>
      ["Convert parsed SKTL templates to Liquid",
       "",
       "Usage: sktl2liquid [OPTIONS] <COMMAND>",
       "",
       "Commands:",
       "  convert  Convert a parsed template (parser JSON) to Liquid",
       "  check    Check that parsed templates convert, without writing output",
       "  help     Print this message or the help of the given subcommand(s)",
       "",
       "Options:",
       "  -v, --verbose        Verbose output",
       "      --color <COLOR>  Color output (auto, always, never) [default: auto]",
       "  -h, --help           Print help",
       "  -V, --version        Print version"]
  | .convert =>
      ["Convert a parsed template (parser JSON) to Liquid",
       "",
       "Usage: sktl2liquid convert [OPTIONS] <FILE>",
       "",
       "Arguments:",
       "  <FILE>  Parsed template file",
       "",
       "Options:",
       "  -o, --output <OUTPUT>  Output file (default: stdout)",
       "  -v, --verbose          Verbose output",
       "      --color <COLOR>    Color output (auto, always, never) [default: auto]",
       "  -h, --help             Print help"]
  | .check =>
      ["Check that parsed templates convert, without writing output",
       "",
       "Usage: sktl2liquid check [OPTIONS] [FILES]...",
       "",
       "Arguments:",
       "  [FILES]...  Parsed template files",
       "",
       "Options:",
       "  -s, --strict         Strict mode (unclosed blocks fail the check)",
       "  -v, --verbose        Verbose output",
       "      --color <COLOR>  Color output (auto, always, never) [default: auto]",
       "  -h, --help           Print help"]

/-- The help on a topic. -/
def helpText (topic : Stretch) : String := String.join ((helpLines topic).map (· ++ "\n"))

end Liquefy.Command
