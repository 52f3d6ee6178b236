import ServingAdmin.Autoscaling.Settings
import ServingAdmin.Table.Basic

/-!
# The list of autoscaling settings
-/

namespace ServingAdmin
namespace Autoscaling

/-- The table of the settings that the data of the autoscaler config map stand for. -/
def listing (data : KeyMap String) (noHeaders : Bool) : Except Failure Table :=
  (Settings.read data).map fun s =>
    { Table.ofHeaders ["Name", "Value"] with
      rows := s.rows.map fun r => [r.1, r.2], noHeaders := noHeaders }

end Autoscaling
end ServingAdmin
