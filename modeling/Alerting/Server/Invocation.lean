/-!
# Invocations

What the arguments of the command line ask for.
-/

namespace Alerting.Server

inductive Invocation where
  | run (config rule : String)
  | preview (config rule : String)
  | seed (config seed : String)
  | help
  | serve (config : String)
deriving DecidableEq, Repr, Inhabited

namespace Invocation

def usualConfig : String := "config/server.toml"

def usage : String :=
  "Usage:
  vigil-server [config.toml]                          Start the scheduler
  vigil-server run <config.toml> <rule_id>            Run one rule now (time condition forced)
  vigil-server preview <config.toml> <rule.json>      Evaluate a rule configuration without sending
  vigil-server seed <config.toml> <seed.json>         Load rules and transport settings from a " ++
    "seed file"

def missingMessage (what : String) : String :=
  "missing argument <" ++ what ++ ">"

def pair (second : String) (make : String → String → Invocation) :
    List String → Except String Invocation
  | config :: other :: _ => .ok (make config other)
  | [_] => .error second
  | [] => .error "config.toml"

/-- What the arguments ask for, or what the argument that is missing is called. -/
def ofArguments : List String → Except String Invocation
  | "run" :: rest => pair "rule_id" run rest
  | "preview" :: rest => pair "rule.json" preview rest
  | "seed" :: rest => pair "seed.json" seed rest
  | "--help" :: _ => .ok help
  | "-h" :: _ => .ok help
  | config :: _ => .ok (serve config)
  | [] => .ok (serve usualConfig)

end Invocation

end Alerting.Server
