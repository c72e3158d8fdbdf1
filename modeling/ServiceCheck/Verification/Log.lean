import ServiceCheck.Verification.Verdict

set_option autoImplicit false

namespace ServiceCheck

namespace Program

def runWarnings (p : Program) : List LogEvent :=
  ((p.declarations.flatMap Declaration.sites).filterMap Site.runPosition?).map fun position =>
    ⟨.warn, position.text ++ ": the run statement is experimental and unsupported", []⟩

/-- Warnings of the way through the declarations, then the counts of the later stages, then the
problems of a rejected program. -/
def verificationLog (callerTypes : TypeMap) (config : Config) (p : Program) : List LogEvent :=
  p.runWarnings ++
  [⟨.debug, "type links resolved", [("links", p.links.length.repr)]⟩,
    ⟨.debug, "redeclarations checked",
      [("types", (p.laterTypes callerTypes).length.repr),
        ("operations", p.laterOperations.length.repr)]⟩,
    ⟨.debug, "correlation sets processed", [("sets", p.correlationSets.length.repr)]⟩] ++
  match p.verify callerTypes config with
  | .rejected problems =>
    ⟨.error,
      "aborting: " ++ (Diagnostics.errorCount problems).repr ++ " semantic errors found", []⟩ ::
      problems.map fun d => ⟨.error, d.text, []⟩
  | _ => []

end Program

end ServiceCheck
