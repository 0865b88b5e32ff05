import Rollout.Options.Value

/-!
# Layered options

Options are laid over one another, the upper layer winning key by key, and grouped answers are
flattened one level: a nested map gives its entries to the map that holds it, and an own entry
wins over a lifted one.
-/

namespace Rollout.OptionMap

/-- One layer over another, the upper one optional. -/
def merge (lower : OptionMap) (upper : Option OptionMap) : OptionMap :=
  Dict.overlay lower (upper.getD [])

/-- The entries of the nested maps, later maps over earlier ones. -/
def lifted (o : OptionMap) : OptionMap :=
  o.foldl (fun acc (_, v) => match v with
    | .map entries => Dict.overlay acc entries
    | _ => acc) []

/-- The entries that are not maps. -/
def plain (o : OptionMap) : OptionMap :=
  o.filter fun (_, v) => match v with
    | .map _ => false
    | _ => true

/-- Grouped options flattened one level. -/
def flatten (o : OptionMap) : OptionMap := Dict.overlay (lifted o) (plain o)

end Rollout.OptionMap
