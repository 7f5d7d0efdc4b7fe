import HopTrace.Plugin.Registry
import HopTrace.Proofs.Text.Pieces
import Mathlib.Data.List.Induction

/-!
# What an enable-list enables

A registry knows, for each name, the constructor that was registered last under
it. An enable-list is taken piece by piece: each piece contributes the plugin of
its trimmed name, or nothing, whatever the other pieces contribute.
-/

namespace HopTrace.Registry

/-! ## Registrations -/

/-- Registries with all that was ever registered, in that order. -/
inductive Built : List (String × PluginConstructor) → Registry → Prop
  | ofList (entries : List (String × PluginConstructor)) : Built entries (ofList entries)
  | register {entries r} (built : Built entries r) (name : String) (make : PluginConstructor) :
      Built (entries ++ [(name, make)]) (r.register name make)

variable {r r' : Registry} {entries : List (String × PluginConstructor)}

theorem built_builtin : Built [("default", Plugin.idle?), ("debug", Plugin.progress?)] builtin :=
  .ofList _

def lastUnder? (entries : List (String × PluginConstructor)) (name : String) :
    Option PluginConstructor :=
  (entries.filter (·.1 = name)).getLast?.map (·.2)

theorem lastUnder?_concat (entries : List (String × PluginConstructor)) (name : String)
    (make : PluginConstructor) (other : String) :
    lastUnder? (entries ++ [(name, make)]) other =
      if name = other then some make else lastUnder? entries other := by
  rw [lastUnder?, List.filter_append]
  split_ifs with same
  · simp [same]
  · simp [same, lastUnder?]

theorem find?_register (r : Registry) (name : String) (make : PluginConstructor) (other : String) :
    (r.register name make).find? other = if name = other then some make else r.find? other := by
  split_ifs with same
  · simp [find?, register, same]
  · have hfilter : ((r.entries.filter (·.1 ≠ name)).find? (·.1 == other)) =
        r.entries.find? (·.1 == other) := by
      rw [List.find?_filter]
      refine congrArg (r.entries.find? ·) (funext fun e => ?_)
      by_cases he : e.1 = other
      · simp [he, Ne.symm same]
      · simp [he]
    rw [find?, register, List.find?_cons_of_neg (by simpa using same), hfilter]
    rfl

theorem ofList_concat (entries : List (String × PluginConstructor)) (name : String)
    (make : PluginConstructor) :
    ofList (entries ++ [(name, make)]) = (ofList entries).register name make := by
  rw [ofList, List.foldl_append]
  rfl

theorem find?_ofList (entries : List (String × PluginConstructor)) (name : String) :
    (ofList entries).find? name = lastUnder? entries name := by
  induction entries using List.reverseRecOn with
  | nil => rfl
  | append_singleton entries e ih => rw [ofList_concat, find?_register, lastUnder?_concat, ih]

theorem Built.find?_eq (built : Built entries r) (name : String) :
    r.find? name = lastUnder? entries name := by
  induction built with
  | ofList entries => exact find?_ofList entries name
  | register built other make ih => rw [find?_register, lastUnder?_concat, ih]

/-! ## Pieces of an enable-list -/

theorem create_fst (r : Registry) (params : Json.Value) (name : String) :
    (r.create params name).1 = ((r.find? name).bind (· params)).toList := by
  unfold create
  cases r.find? name with
  | none => rfl
  | some make =>
    dsimp only [Option.bind_some]
    cases make params <;> rfl

def follow (x y : List Plugin × List Log.Entry) : List Plugin × List Log.Entry :=
  (x.1 ++ y.1, x.2 ++ y.2)

theorem createPlugins_append (r : Registry) (a b : String) (params : Json.Value) :
    r.createPlugins (a ++ "," ++ b) params =
      follow (r.createPlugins a params) (r.createPlugins b params) := by
  simp only [createPlugins, follow, Text.listedNames_append, List.map_append, List.flatMap_append]

theorem createPlugins_of_not_mem {a : String} (single : ',' ∉ a.toList) (params : Json.Value) :
    r.createPlugins a params = r.create params (String.ofList (Text.trim a.toList)) := by
  rw [createPlugins, Text.listedNames_of_not_mem single]
  simp

theorem createPlugins_intercalate (r : Registry) (params : Json.Value) {pieces : List String}
    (listed : pieces ≠ []) :
    (r.createPlugins (",".intercalate pieces) params).1 =
      pieces.flatMap fun piece => (r.createPlugins piece params).1 := by
  induction pieces with
  | nil => contradiction
  | cons piece pieces ih =>
    cases pieces with
    | nil => simp
    | cons next rest =>
      rw [String.intercalate_cons_cons, createPlugins_append, List.flatMap_cons, ← ih (by simp)]
      rfl

theorem createPlugins_of_trimmed (built : Built entries r) (params : Json.Value) {a name : String}
    (single : ',' ∉ a.toList) (trimmed : Text.Trimmed a.toList name.toList) :
    (r.createPlugins a params).1 = ((lastUnder? entries name).bind (· params)).toList := by
  have hname : String.ofList (Text.trim a.toList) = name := by
    rw [trimmed.trim_eq, String.ofList_toList]
  rw [createPlugins_of_not_mem single, create_fst, hname, built.find?_eq]

/-- A piece that contributes nothing might as well not be there. -/
theorem createPlugins_of_idle {x : String} {params : Json.Value}
    (nothing : (r.createPlugins x params).1 = []) (a b : String) :
    (r.createPlugins (a ++ "," ++ x ++ "," ++ b) params).1 =
      (r.createPlugins (a ++ "," ++ b) params).1 := by
  simp only [createPlugins_append, follow, nothing, List.append_nil]

theorem createPlugins_congr (found : ∀ name, r'.find? name = r.find? name) (a : String)
    (params : Json.Value) : r'.createPlugins a params = r.createPlugins a params := by
  have hcreate : r'.create params = r.create params := by
    funext name
    rw [create, create, found]
  rw [createPlugins, createPlugins, hcreate]

/-- An enable-list joined from two by a comma enables what the one and then what the other enables.
A piece of it enables the plugin that the constructor registered last under its trimmed name makes
of the parameters, if there is one, whatever the other pieces are. How the registrations of
different names follow each other does not matter. -/
theorem createPlugins_exact (built : Built entries r) (params : Json.Value) :
    (∀ a b, r.createPlugins (a ++ "," ++ b) params =
      follow (r.createPlugins a params) (r.createPlugins b params)) ∧
      (∀ a name : String, ',' ∉ a.toList → Text.Trimmed a.toList name.toList →
        (r.createPlugins a params).1 = ((lastUnder? entries name).bind (· params)).toList) ∧
      (∀ pieces, pieces ≠ [] → (r.createPlugins (",".intercalate pieces) params).1 =
        pieces.flatMap fun piece => (r.createPlugins piece params).1) ∧
      (∀ x, (r.createPlugins x params).1 = [] → ∀ a b,
        (r.createPlugins (a ++ "," ++ x ++ "," ++ b) params).1 =
          (r.createPlugins (a ++ "," ++ b) params).1) ∧
      ∀ entries' r', Built entries' r' →
        (∀ name, entries'.filter (·.1 = name) = entries.filter (·.1 = name)) →
        ∀ a, r'.createPlugins a params = r.createPlugins a params := by
  refine ⟨fun a b => r.createPlugins_append a b params,
    fun _ _ => createPlugins_of_trimmed built params,
    fun _ => r.createPlugins_intercalate params, fun _ => createPlugins_of_idle, ?_⟩
  intro entries' r' built' same a
  refine createPlugins_congr (fun name => ?_) a params
  rw [built'.find?_eq, built.find?_eq, lastUnder?, lastUnder?, same]

def later? (_ : Json.Value) : Option Plugin := some { name := "later" }

def replacing : List (String × PluginConstructor) :=
  [("default", Plugin.idle?), ("debug", Plugin.progress?), ("debug", later?)]

def reordered : List (String × PluginConstructor) :=
  [("debug", Plugin.progress?), ("debug", later?), ("default", Plugin.idle?)]

theorem createPlugins_exact_replaced :
    let r := builtin.register "debug" later?
    Built replacing r ∧ ',' ∉ "\u2003debug ".toList ∧
      Text.Trimmed "\u2003debug ".toList "debug".toList ∧
      (r.createPlugins "\u2003debug " .null).1 = [{ name := "later" }] ∧
      (r.createPlugins ",unknown" .null).1 = [] ∧
      (r.createPlugins "default,,unknown,default" .null).1 = [Plugin.idle, Plugin.idle] ∧
      ∀ a, (ofList reordered).createPlugins a .null = r.createPlugins a .null := by
  intro r
  have built : Built replacing r := built_builtin.register "debug" later?
  have single : ',' ∉ "\u2003debug ".toList := by decide
  have trimmed : Text.Trimmed "\u2003debug ".toList "debug".toList :=
    Text.trimmed_iff.mpr (by decide)
  have nothing : (r.createPlugins ",unknown" .null).1 = [] := by decide
  have same (name : String) :
      reordered.filter (·.1 = name) = replacing.filter (·.1 = name) := by
    by_cases first : "debug" = name
    · simp [reordered, replacing, ← first]
    · simp [reordered, replacing, List.filter_cons, first]
  obtain ⟨-, each, -, idle, order⟩ := createPlugins_exact built .null
  refine ⟨built, single, trimmed, ?_, nothing, ?_, order reordered _ (.ofList reordered) same⟩
  · exact (each _ _ single trimmed).trans rfl
  · exact (idle _ nothing "default" "default").trans rfl

end HopTrace.Registry
