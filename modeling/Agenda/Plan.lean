import Agenda.Plan.Listing
import Agenda.Plan.Update
/-!
# Compiling commands

A command, the day on which it is given and the selected task make a plan.
-/
namespace Agenda

def ContextAction.ofArg : Option ContextArg → ContextAction
  | none => .show
  | some .clear => .clear
  | some (.tag kind name) => .enter kind name

/-- See 4.4 of the specification. -/
def Command.compile (today : Date) (selected : Option Nat) : Command → Except CompileError Plan
  | create title ops span => (CreateRequest.compile today title ops span).map .create
  | update target ops span =>
    (UpdateRequest.compile today selected target ops span).map .update
  | filter e _ => (ListRequest.compile today e).map .list
  | view v _ => .ok (.view v (v.map ListRequest.ofView))
  | context a _ => .ok (.context (.ofArg a))

end Agenda
