import EventKernel.Settings.Layers
import EventKernel.Simulation.Basic

set_option autoImplicit false

/-! Simulations started from layered settings. -/

namespace EventKernel

inductive StartError where
  | layers (directory : String) (error : LayerError)
  | settings (error : SettingsError)
deriving DecidableEq, Repr

namespace StartError

def summary : StartError → String
  | layers directory _ => s!"loading configuration from {directory}"
  | settings _ => "invalid scheduler configuration"

def cause : StartError → String
  | layers _ error => error.message
  | settings error => error.message

end StartError

def SettingsSources.simulation {σ β : Type} (sources : SettingsSources) (directory : String)
    (hook : σ) : Except Fault (Except StartError (Simulation σ β)) := do
  match sources.settings with
  | .error error => return .error (.layers directory error)
  | .ok settings =>
      match ← settings.configuration with
      | .error error => return .error (.settings error)
      | .ok configuration =>
          match ← Simulation.new configuration hook with
          | .error error => return .error (.settings (.configuration error))
          | .ok simulation => return .ok simulation

end EventKernel
