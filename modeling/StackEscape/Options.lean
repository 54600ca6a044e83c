import StackEscape.Json.Reader
import StackEscape.Json.Record

/-!
# Analyzer options

The settings of a run and their JSON form: an object with any of the option names, or an array with
the first few settings.

## Main definitions

* `StackEscape.Options` — the settings.
* `StackEscape.Options.ofJson?`, `load?` — the settings that a JSON value or a text stands for.
-/

set_option autoImplicit false

namespace StackEscape

open Json

/-- The settings of a run. -/
structure Options where
  /-- Can the runtime substitute stack-only types into generics? -/
  runtimeSupport : Bool := true
  /-- May bodies be checked side by side? The result is the same either way. -/
  parallel : Bool := false
  /-- Are bodies of members with malformed declarations skipped? -/
  stopOnDeclarationErrors : Bool := false
  deriving DecidableEq, Inhabited, Repr

namespace Options

/-- The names of the settings, in order. -/
def names : List String :=
  ["runtime_supports_byref_generics", "parallel", "stop_on_declaration_errors"]

/-- The fields that are given: an object must not contain anything else, and an array gives the
first few. -/
def fields? : Value → Option Fields
  | .obj entries => do
    let entries ← entries.mapM fun (k, v) => k.whole?.map fun k => (k, v)
    if entries.all (fun e => names.contains e.1) && distinct (entries.map Prod.fst) then
      some entries
    else none
  | .arr items => if items.length ≤ names.length then some (names.zip items) else none
  | _ => none

/-- A setting, or its default where it is not given. -/
def setting (fs : Fields) (name : String) (default : Bool) : Option Bool :=
  match fs.lookup name with
  | none => some default
  | some v => v.bool?

/-- The settings that a JSON value stands for. -/
def ofJson? (v : Value) : Option Options := do
  let fs ← fields? v
  return ⟨← setting fs "runtime_supports_byref_generics" true, ← setting fs "parallel" false,
    ← setting fs "stop_on_declaration_errors" false⟩

/-- The settings that a text stands for. -/
def load? (text : String) : Option Options := (Value.read? text).bind ofJson?

/-- The options with runtime support switched. -/
def withRuntimeSupport (o : Options) (b : Bool) : Options := { o with runtimeSupport := b }

/-- The options with side-by-side checking switched. -/
def withParallel (o : Options) (b : Bool) : Options := { o with parallel := b }

/-- The options with skipping switched. -/
def withStopOnDeclarationErrors (o : Options) (b : Bool) : Options :=
  { o with stopOnDeclarationErrors := b }

end Options

end StackEscape
