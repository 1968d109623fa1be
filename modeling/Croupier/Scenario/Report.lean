import Croupier.Scenario.Play
import Croupier.Yaml.Writer

/-!
# Writing reports

A report is written as a document: every scenario with its name, whether it passed and what was noted, and then the
number of scenarios that were skipped, if there are any.
-/

namespace Croupier

/-- The lines of a result. -/
def ScenarioResult.write (r : ScenarioResult) : String :=
  let failures := r.failures.map fun f => "      - " ++ Yaml.writeText 8 f
  "  - name: " ++ Yaml.writeText 6 r.name ++ "    passed: " ++ toString r.passed ++ "\n" ++
    (if failures.isEmpty then "" else "    failures:\n" ++ String.join failures)

/-- A report as a document. -/
def Report.write (r : Report) : String :=
  let results := if r.results.isEmpty then "results: []\n" else "results:\n" ++ String.join (r.results.map (·.write))
  results ++ (if r.skipped = 0 then "" else "skipped: " ++ toString r.skipped ++ "\n")

end Croupier
