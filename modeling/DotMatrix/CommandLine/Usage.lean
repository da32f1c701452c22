import DotMatrix.CommandLine.Options

/-! What the command line says about itself. -/
namespace DotMatrix.CommandLine

def version : String := "dotmatrix 0.1.0\n"

def usage : String :=
  "Runs a boot ROM and writes every frame that it draws.\n\n" ++
    "Usage: dotmatrix [options] <boot ROM> <cartridge>\n\n" ++
    "  -o, --output <directory>  where frames are written (frames)\n" ++
    "  -f, --format <format>     pbm or ppm (pbm)\n" ++
    "      --step                ask before every instruction\n" ++
    "      --max-steps <count>   stop after so many instructions\n" ++
    "      --stop-at <address>   stop at this hexadecimal address\n" ++
    "      --legacy-flags        leave the half carry alone in arithmetic\n" ++
    "      --header              print the title and the logo of the cartridge\n" ++
    "  -h, --help                print this text\n" ++
    "  -V, --version             print the version\n"

/-- What is wrong with a command line, in one line. -/
def complaint (fault : UsageFault) : String :=
  match fault.cause? with
  | some cause => cause
  | none =>
    match fault with
    | .missingWord => "a boot ROM and a cartridge are needed"
    | .unknownWord => "a word is not understood"
    | .invalidValue => "a value is missing or not allowed"
    | .repeatedOption => "an option is given twice"
    | .unwantedValue => "a switch takes no value"
    | _ => ""

end DotMatrix.CommandLine
