/-!
# Help texts

What is printed when help is asked for, one text for the program and one for each command.
-/

namespace LocalSat.Cli

/-- Lines as a text. -/
def unlines (ls : List String) : String := String.join (ls.map (· ++ "\n"))

/-- The help text of the program. -/
def programHelp : String := unlines
  ["usage: greedysat [-h] [--config CONFIG] [--log-level LOG_LEVEL]",
   "                 \x7bsolve,benchmark\x7d ...",
   "",
   "Greedy local search for CNF satisfiability",
   "",
   "positional arguments:",
   "  \x7bsolve,benchmark\x7d",
   "    solve               Solve a DIMACS CNF file",
   "    benchmark           Compare algorithms on random k-SAT instances",
   "",
   "options:",
   "  -h, --help            show this help message and exit",
   "  --config CONFIG       YAML configuration file",
   "  --log-level LOG_LEVEL",
   "                        Logging level (default: INFO)"]

/-- The help text of the command that solves a file. -/
def solveHelp : String := unlines
  ["usage: greedysat solve [-h] [--algorithm \x7bgreedy,random\x7d] [--seed SEED]",
   "                       [--max-iterations MAX_ITERATIONS] [--timeout TIMEOUT]",
   "                       [--initialization \x7brandom,unassigned\x7d]",
   "                       [--events-dir EVENTS_DIR] [--events-format \x7bjson,csv\x7d]",
   "                       file",
   "",
   "positional arguments:",
   "  file",
   "",
   "options:",
   "  -h, --help            show this help message and exit",
   "  --algorithm \x7bgreedy,random\x7d",
   "  --seed SEED",
   "  --max-iterations MAX_ITERATIONS",
   "  --timeout TIMEOUT",
   "  --initialization \x7brandom,unassigned\x7d",
   "  --events-dir EVENTS_DIR",
   "                        Write progress/result events to this directory",
   "  --events-format \x7bjson,csv\x7d"]

/-- The help text of the command that compares algorithms. -/
def benchmarkHelp : String := unlines
  ["usage: greedysat benchmark [-h] [--variables VARIABLES] [--ratio RATIO]",
   "                           [--clause-size CLAUSE_SIZE] [--instances INSTANCES]",
   "                           [--seeds SEEDS] [--max-iterations MAX_ITERATIONS]",
   "                           [--output OUTPUT]",
   "",
   "options:",
   "  -h, --help            show this help message and exit",
   "  --variables VARIABLES",
   "  --ratio RATIO         Clauses per variable",
   "  --clause-size CLAUSE_SIZE",
   "  --instances INSTANCES",
   "  --seeds SEEDS         Number of solver seeds per instance",
   "  --max-iterations MAX_ITERATIONS",
   "  --output OUTPUT       CSV file for the per-run table"]

end LocalSat.Cli
