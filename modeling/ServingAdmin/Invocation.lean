import ServingAdmin.Autoscaling.Command
import ServingAdmin.Claim.Command
import ServingAdmin.CommandLine.Reader
import ServingAdmin.Domain.Command
import ServingAdmin.Parameters
import ServingAdmin.Registry.Command

/-!
# Invocations

The commands of the tool, the command line on which they are given, and the script of
each.
-/

namespace ServingAdmin

open CommandLine

/-- A command of the tool. -/
inductive Command
  | listSettings (noHeaders : Bool)
  | updateSettings (update : Autoscaling.Update)
  | listDomains (noHeaders : Bool)
  | createClaim (name ns : String)
  | deleteClaim (name : String)
  | listClaims (noHeaders : Bool)
  | listRegistries (ns account : Option String) (noHeaders : Bool)
  deriving DecidableEq

namespace Command

/-- The script of a command. -/
def script : Command → Script Unit
  | listSettings noHeaders => Autoscaling.listCommand noHeaders
  | updateSettings update => Autoscaling.updateCommand update
  | listDomains noHeaders => Domain.listCommand noHeaders
  | createClaim name ns => Claim.createCommand name ns
  | deleteClaim name => Claim.deleteCommand name
  | listClaims noHeaders => Claim.listCommand noHeaders
  | listRegistries ns account noHeaders => Registry.listCommand ns account noHeaders

end Command

namespace AdminTool

/-- The option that leaves the headers out. -/
def noHeaders : Opt := .flag "no-headers"

/-- Whether the headers are left out. -/
def hidesHeaders (g : Given) : Bool := g.has noHeaders.name

/-- The flag that switches scale-to-zero on. -/
def scaleToZero : Opt := .flag "scale-to-zero"

/-- The flag that switches scale-to-zero off. -/
def noScaleToZero : Opt := .flag "no-scale-to-zero"

/-- The fields that are given through options with values. -/
def valuedFields : List Autoscaling.Field :=
  Autoscaling.fields.filter Autoscaling.Field.takesValue

/-- The update that is asked for, with its values in the order of the fields. -/
def updateOf (g : Given) : Autoscaling.Update where
  enable := g.has scaleToZero.name
  disable := g.has noScaleToZero.name
  values := valuedFields.filterMap fun f => (g.value? f.name).map (f.name, ·)

/-- The commands for the autoscaling settings. -/
def autoscaling : Level Command :=
  .group "autoscaling" [] [
    .command "list" [] [noHeaders] [] fun g => .listSettings (hidesHeaders g),
    .command "update" []
      ([scaleToZero, noScaleToZero] ++ valuedFields.map fun f => .valued f.name) []
      fun g => .updateSettings (updateOf g)]

/-- The commands for custom domains. -/
def domain : Level Command :=
  .group "domain" [] [.command "list" [] [noHeaders] [] fun g => .listDomains (hidesHeaders g)]

/-- The text of an argument or option that is required. -/
def textOf (g : Given) (name : String) : String := (g.value? name).getD ""

/-- The commands for claims. -/
def claims : Level Command :=
  .group "cdc" [] [
    .command "create" [] [{ Opt.valued "namespace" with isRequired := true }] ["name"]
      fun g => .createClaim (textOf g "name") (textOf g "namespace"),
    .command "delete" [] [] ["name"] fun g => .deleteClaim (textOf g "name"),
    .command "list" [] [noHeaders] [] fun g => .listClaims (hidesHeaders g)]

/-- The commands for registries. -/
def registry : Level Command :=
  .group "registry" [] [
    .command "list" ["ls"]
      [{ Opt.valued "namespace" with letter := some 'n' }, .valued "serviceaccount", noHeaders] []
      fun g =>
        .listRegistries (g.value? "namespace") (g.value? "serviceaccount") (hidesHeaders g)]

/-- The option that adds to what is reported. -/
def verbose : Opt :=
  { Opt.flag "verbose" with word := none, letter := some 'v', mayRepeat := true }

/-- The option that asks for the places that reports come from. -/
def debug : Opt := { Opt.flag "debug" with letter := some 'd' }

/-- The option that names a configuration file. -/
def kubeConfig : Opt := .valued "kubeconfig"

/-- The name of the tool. -/
def name : String := "kn-admin"

/-- What is printed when the level at the end of a path is asked for its version.  Only the tool
has a number; behind the name of any other level its place stays empty. -/
def versionText (path : List String) : String :=
  "-".intercalate (name :: path) ++ (if path = [] then " 0.1.0\n" else " \n")

/-- The command line of the tool. -/
def commandLine : CommandLine.Tool Command where
  top := .group name [] [autoscaling, domain, claims, registry]
  general := [verbose, debug, kubeConfig]

end AdminTool

/-- A command together with what is given for every command. -/
structure Invocation where
  path : List String
  verbosity : Nat
  debug : Bool
  kubeConfig : Option String
  command : Command
  deriving DecidableEq

namespace Invocation

/-- The invocation that was read. -/
def ofReading (r : Reading Command) : Invocation where
  path := r.path
  verbosity := ((r.general? AdminTool.verbose.name).map Mention.count).getD 0
  debug := (r.general? AdminTool.debug.name).isSome
  kubeConfig := (r.general? AdminTool.kubeConfig.name).bind fun m => m.values.head?
  command := r.command

/-- Reads the words of a command line. -/
def read (words : List String) : Except Stop Invocation :=
  (AdminTool.commandLine.read words).map ofReading

/-- What the command is about, in messages. -/
def topic (i : Invocation) : String := i.path.headD AdminTool.name

/-- The script of an invocation: the parameters come first. -/
def script (isThere : String → Bool) (i : Invocation) : Script Unit := do
  let parameters ← Script.ofExcept (Parameters.resolve isThere i.kubeConfig)
  Script.reportAll (parameters.kubeConfig.toList.map .usingKubeConfig)
  i.command.script

end Invocation
end ServingAdmin
