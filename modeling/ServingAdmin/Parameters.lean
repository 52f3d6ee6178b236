import ServingAdmin.Problem

/-!
# Parameters

The parameters that every command has: which configuration file names the cluster.  A
file that is named has to be there.  A name with colons in it that is no file is taken
for a list of files, which can only be given through the environment.
-/

namespace ServingAdmin

/-- The parameters of a run. -/
structure Parameters where
  kubeConfig : Option String
  deriving DecidableEq

namespace Parameters

/-- The parameters for a file that may be named; an empty name is the same as none. -/
def resolve (isThere : String → Bool) (kubeConfig : Option String) :
    Except Failure Parameters :=
  match kubeConfig.filter (fun path => !path.isEmpty) with
  | none => .ok ⟨none⟩
  | some path =>
      if isThere path then .ok ⟨some path⟩
      else if path.toList.contains ':' then .error (.of (.kubeConfigPathList path))
      else .error (.of (.missingKubeConfig path))

end Parameters
end ServingAdmin
