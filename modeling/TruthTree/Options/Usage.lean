/-! What the program says about its own command line. -/
namespace TruthTree

namespace Usage

def programName : String := "run_tableau.py"

def usage : String :=
  "usage: run_tableau.py [-h] [-f PREMISES_FILE] [--strict] [-v] [--debug]\n" ++
  "                      [--render-format RENDER_FORMAT]\n" ++
  "                      [premises ...]\n"

def help : String :=
  usage ++
  "\n" ++
  "Arbor interactive truth tree builder\n" ++
  "\n" ++
  "positional arguments:\n" ++
  "  premises              Premises in prefix notation (quote each one)\n" ++
  "\n" ++
  "options:\n" ++
  "  -h, --help            show this help message and exit\n" ++
  "  -f PREMISES_FILE, --premises-file PREMISES_FILE\n" ++
  "                        Path to a file with one premise per line\n" ++
  "  --strict              Validate premises and normalize their whitespace\n" ++
  "                        before use\n" ++
  "  -v, --verbose         Enable verbose output\n" ++
  "  --debug               Enable debug output (overrides --verbose)\n" ++
  "  --render-format RENDER_FORMAT\n" ++
  "                        Image format for the render command (default: png)\n" ++
  "\n" ++
  "Examples:\n" ++
  "  python run_tableau.py \"(if P Q)\" \"(not Q)\" \"P\"\n" ++
  "  python run_tableau.py -f premises.txt --strict\n" ++
  "  python run_tableau.py --debug\n" ++
  "\n" ++
  "Premise syntax (fully parenthesized prefix notation):\n" ++
  "  (not (if (and P Q) (iff (or A B) R)))\n" ++
  "\n" ++
  "Premise file format:\n" ++
  "  One premise per line; blank lines and lines starting with '#' are ignored.\n" ++
  "        \n"

end Usage

end TruthTree
