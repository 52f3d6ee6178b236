import ServingAdmin.Autoscaling.Listing
import ServingAdmin.Autoscaling.Update
import ServingAdmin.Cluster.Exchange

/-!
# Autoscaling commands

Listing and updating the autoscaling settings.  An update is checked as a whole before
the cluster is asked for anything, and the config map is replaced only if a key does
not hold the wanted value already.
-/

namespace ServingAdmin
namespace Autoscaling

open Cluster
open Script

/-- The config map with the autoscaling settings. -/
def settingsMap : String := "config-autoscaler"

/-- Fetches the config map with the autoscaling settings. -/
def fetchSettings : Script ConfigMap :=
  (Exchange.fetch settingsMap).context .configMapsNotFetched

/-- Prints the autoscaling settings. -/
def listCommand (noHeaders : Bool) : Script Unit := do
  let c ← fetchSettings
  printListing (listing c.settings noHeaders)

/-- Checks an update and reports the values that the check looks at. -/
def Update.examine (u : Update) : Script Changes := do
  reportAll (u.examined.map fun v => .examining v.1 v.2)
  ofExcept u.check

/-- A config map with changes made to its data. -/
def Changes.applyToMap (changes : Changes) (c : ConfigMap) : ConfigMap :=
  { c with data := some (changes.applyTo c.settings) }

/-- Writes changes that alter a config map. -/
def Changes.write (changes : Changes) (c : ConfigMap) : Script Unit := do
  reportAll ((changes.pending c.settings).map fun e => .setting e.1 e.2)
  if changes.alters c.settings then
    let _ ← (Exchange.replace (changes.applyToMap c)).context
      (.configMapNotUpdated settingsMap servingNamespace)
    done ()
  else report (.upToDate settingsMap) (done ())

/-- Updates the autoscaling settings.  The update is checked once before the cluster is asked for
anything and once more by the command itself. -/
def updateCommand (u : Update) : Script Unit := do
  let _ ← u.examine
  let changes ← u.examine
  let installation ← Exchange.installation
  ofExcept installation.ensureEditable
  let c ← fetchSettings
  changes.write c
  print "Updated Knative autoscaling config\n" (done ())

end Autoscaling
end ServingAdmin
