import HopTrace.Plugin.Bundled
import HopTrace.Plugin.Dispatch
import HopTrace.Text.Blank
import HopTrace.Text.Quoted

/-!
# Plugins by name

A registry holds one constructor for each name. An enable-list is turned into
the plugins it names, in its order; names nobody registered and constructors
that refuse the parameters are left out and logged.
-/

namespace HopTrace

abbrev PluginConstructor := Json.Value → Option Plugin

structure Registry where
  entries : List (String × PluginConstructor) := []

namespace Registry

/-- Registers a constructor, instead of an earlier one of that name. -/
def register (r : Registry) (name : String) (make : PluginConstructor) : Registry :=
  ⟨(name, make) :: r.entries.filter (·.1 ≠ name)⟩

def ofList (entries : List (String × PluginConstructor)) : Registry :=
  entries.foldl (fun r e => r.register e.1 e.2) {}

def builtin : Registry := ofList [("default", Plugin.idle?), ("debug", Plugin.progress?)]

def find? (r : Registry) (name : String) : Option PluginConstructor :=
  (r.entries.find? (·.1 == name)).map (·.2)

def contains (r : Registry) (name : String) : Bool := (r.find? name).isSome

def names (r : Registry) : List String := (r.entries.map (·.1)).mergeSort (· ≤ ·)

def describe (r : Registry) : String :=
  "PluginRegistry \x7b plugins: " ++ Text.quotedList r.names ++ " \x7d"

/-- What one name of an enable-list contributes. The empty name is left out silently. -/
def create (r : Registry) (params : Json.Value) (name : String) : List Plugin × List Log.Entry :=
  match r.find? name with
  | none =>
    ([], if name = "" then []
      else [⟨.debug, "Ignoring unknown plugin", [("plugin", .text name)]⟩])
  | some make =>
    match make params with
    | some plugin => ([plugin], [])
    | none => ([], [⟨.debug, "Plugin rejected its parameters", [("plugin", .text name)]⟩])

/-- The plugins of an enable-list, with what was logged about the others. -/
def createPlugins (r : Registry) (enabled : String) (params : Json.Value) :
    List Plugin × List Log.Entry :=
  let results := (Text.listedNames enabled).map (r.create params)
  (results.flatMap (·.1), results.flatMap (·.2))

end Registry

end HopTrace
