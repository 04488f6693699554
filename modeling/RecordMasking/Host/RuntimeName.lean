import RecordMasking.Host.Manifest

/-!
# The name of the runtime

A crate can give the masking crate a name of its own.  The name is that of
the dependency on the package `masking`; of several the last one counts.  A
package that is `masking` itself, and one without such a dependency, use the
package's name; a dependency that names the crate's own package does not
count.
-/

namespace RecordMasking.Host

def runtimePackage : String := "masking"

def dependencyTables (entries : Entries) : List Entries :=
  ["dependencies", "dev-dependencies"].filterMap fun key =>
    (entries.lookup key).bind Value.entries?

def targetTables (manifest : Entries) : List Entries :=
  match (manifest.lookup "target").bind Value.entries? with
  | none => []
  | some targets =>
      targets.flatMap fun target =>
        match target.2.entries? with
        | some entries => dependencyTables entries
        | none => []

/-- All dependencies, those of the targets last. -/
def dependencies (manifest : Entries) : Entries :=
  (dependencyTables manifest ++ targetTables manifest).flatten

/-- The package that a dependency names, or its own name where it names
none. -/
def namedPackage (dependency : String × Value) : String :=
  ((dependency.2.get? "package").bind Value.text?).getD dependency.1

/-- The dependencies that the workspace of a manifest shares. -/
def sharedDependencies (manifest : Entries) : Entries :=
  (((manifest.lookup "workspace").bind fun workspace =>
    workspace.get? "dependencies").bind Value.entries?).getD []

/-- The package that a dependency stands for; one that is taken from the
workspace stands for the package of the dependency there. -/
def packageOf (shared : Entries) (dependency : String × Value) : String :=
  let name := namedPackage dependency
  if ((dependency.2.get? "workspace").map Value.isTrue).getD false then
    ((shared.lookup name).map fun value => namedPackage (name, value)).getD name
  else name

def ownPackage? (manifest : Entries) : Option String :=
  ((manifest.lookup "package").bind fun package => package.get? "name").bind
    Value.text?

def codeName (name : String) : String :=
  String.ofList (name.toList.map fun c => if c = '-' then '_' else c)

/-- The name of the masking crate in the code of the crate with the given
manifest. -/
def runtimeName (manifest : Option String) : String :=
  match manifest.bind readManifest with
  | none => runtimePackage
  | some entries =>
      match (dependencies entries).reverse.find? fun dependency =>
          some (namedPackage dependency) != ownPackage? entries &&
            packageOf (sharedDependencies entries) dependency ==
              runtimePackage with
      | some dependency => codeName dependency.1
      | none => runtimePackage

end RecordMasking.Host
