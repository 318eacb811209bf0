import ReAct.Config
import ReAct.Provider

/-!
# Configuring a session

The parameters of a session name the provider of its model. The provider's protocol chooses the
paths into replies that the parameters leave open.
-/

namespace ReAct.Session

/-- The configuration that parameters lead to, and the protocol of the provider that they name. -/
def configure (settings : Settings) (providers : Provider.Registry) (params : Parameters) :
    Except Failure (Config × Option Provider) := do
  let config ← Config.ofParameters settings params
  let provider ← Provider.find? providers config.interface
  match provider with
  | none => return (config, none)
  | some provider =>
    let paths := config.pathChoices.orElse provider.pathChoices
    return ({ config with pathChoices := paths }, some provider)

end ReAct.Session
