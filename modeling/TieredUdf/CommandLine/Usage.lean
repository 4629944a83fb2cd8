import TieredUdf.CommandLine.Form

/-!
# Texts that explain the command line
-/

namespace TieredUdf.CommandLine

def programName : String := "tiered-udf"

def usageText : String :=
  "\n".intercalate [
    "Usage: " ++ programName ++ " [OPTIONS] <COMMAND>",
    "",
    "Commands:",
    "  inspect <WASM>    Check a module and print its hash, imports and exports",
    "  run <MANIFEST>    Register the module of a manifest and call it",
    "  help              Print this text",
    "",
    "Options of inspect:",
    "      --max-memory-pages <N>   Greatest initial memory in pages [default: 256]",
    "",
    "Options of run:",
    "      --doc <FILE>             Document fields as a JSON file",
    "      --doc-id <ID>            Identifier of the document [default: doc-1]",
    "      --score <SCORE>          Score of the document [default: 1]",
    "      --param <NAME=VALUE>     Parameter of the call; may be repeated",
    "  -n, --iterations <N>         Number of calls [default: 1]",
    "      --wait-native-ms <MS>    Wait for native code before the first call",
    "",
    "Options:",
    "  -v, --verbose                Show more of what modules log; may be repeated",
    "      --config <FILE>          Settings as a TOML file",
    "  -h, --help                   Print this text",
    "  -V, --version                Print the version"]

def Page.text : Page → String
  | .help => usageText
  | .version => programName ++ " 0.2.0"

end TieredUdf.CommandLine
