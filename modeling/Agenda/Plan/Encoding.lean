import Agenda.Json.Value
import Agenda.Plan.Request
/-!
# Plans as JSON

How commands and plans are shown. Every field of a request is there, in a fixed order.
-/
namespace Agenda

namespace Json

/-- An object whose members have names of the program's own. -/
def record (members : List (String × Json)) : Json :=
  object (members.map fun (k, v) => (k.toList, v))

end Json

open Json (record ofOption ofTexts)

def Position.toJson (p : Position) : Json :=
  record [("offset", .number p.offset), ("line", .number p.line), ("column", .number p.column)]

def Span.toJson (s : Span) : Json :=
  record [("start", s.start.toJson), ("end", s.stop.toJson)]

def Date.toJson (d : Date) : Json := .string d.render

def Value.toJson (v : Value) : Json :=
  record [("raw", .string v.raw), ("quoted", .bool v.quoted), ("span", v.span.toJson)]

def Op.toJson : Op → Json
  | .edit how field v span =>
    record [("op", .string how.name), ("field", .string field.name), ("value", v.toJson),
      ("span", span.toJson)]
  | .clear field span =>
    record [("op", .string "clear".toList), ("field", .string field.name), ("span", span.toJson)]
  | .tag kind name span =>
    record [("op", .string "tag".toList), ("kind", .string kind.name), ("name", .string name),
      ("span", span.toJson)]

def Filter.toJson : Filter → Json
  | .binary op l r span =>
    record [("node", .string "binary".toList), ("op", .string op.name), ("left", l.toJson),
      ("right", r.toJson), ("span", span.toJson)]
  | .negation e span =>
    record [("node", .string "not".toList), ("expr", e.toJson), ("span", span.toJson)]
  | .predicate kind text span =>
    record [("node", .string "predicate".toList), ("kind", .string kind.name),
      ("text", .string text), ("span", span.toJson)]

def Target.toJson : Target → Json
  | .selected => .string "selected".toList
  | .id n => record [("id", .number n)]

def ContextArg.toJson : ContextArg → Json
  | .clear => .string "clear".toList
  | .tag kind name => .object [(kind.name, .string name)]

def Command.toJson : Command → Json
  | .create title ops span =>
    record [("command", .string "create".toList), ("title", .string title),
      ("ops", .array (ops.map Op.toJson)), ("span", span.toJson)]
  | .update target ops span =>
    record [("command", .string "update".toList), ("target", target.toJson),
      ("ops", .array (ops.map Op.toJson)), ("span", span.toJson)]
  | .filter e span =>
    record [("command", .string "filter".toList), ("expr", e.toJson), ("span", span.toJson)]
  | .view v span =>
    record [("command", .string "view".toList), ("target", ofOption (fun v => .string v.name) v),
      ("span", span.toJson)]
  | .context a span =>
    record [("command", .string "context".toList), ("arg", ofOption ContextArg.toJson a),
      ("span", span.toJson)]

def TagMatch.toJson : TagMatch → Json
  | .any => .string "any".toList
  | .named n => record [("named", .string n)]

def TaskState.toJson (s : TaskState) : Json := .string s.name

def CreateRequest.toJson (r : CreateRequest) : Json :=
  record [("title", .string r.title), ("notes", .string r.notes), ("state", r.state.toJson),
    ("due_on", ofOption Date.toJson r.due), ("waiting_for", ofOption .string r.waitingFor),
    ("projects", ofTexts r.projects), ("contexts", ofTexts r.contexts),
    ("meta", ofTexts (r.entries.map Entry.render))]

def Dictionary.toJson (d : Dictionary) : Json :=
  .object (d.entries.map fun e => (e.key, .string e.value))

def UpdateRequest.toJson (r : UpdateRequest) : Json :=
  record [("id", .number r.id), ("title", ofOption .string r.title),
    ("notes", ofOption .string r.notes), ("state", ofOption TaskState.toJson r.state),
    ("due_on", ofOption Date.toJson r.dueOn), ("clear_due", .bool r.clearDue),
    ("waiting_for", ofOption .string r.waitingFor),
    ("clear_waiting", .bool r.clearWaiting), ("add_projects", ofTexts r.addProjects),
    ("remove_projects", ofTexts r.removeProjects), ("add_contexts", ofTexts r.addContexts),
    ("remove_contexts", ofTexts r.removeContexts), ("set_meta", r.setEntries.toJson),
    ("remove_meta_keys", ofTexts r.removeKeys)]

def ListRequest.toJson (r : ListRequest) : Json :=
  record [("state", ofOption TaskState.toJson r.state),
    ("project", ofOption TagMatch.toJson r.project),
    ("context", ofOption TagMatch.toJson r.context), ("search", ofOption .string r.search),
    ("id", ofOption .number r.id), ("due_on", ofOption Date.toJson r.due),
    ("due_only", .bool r.dueOnly), ("expr", ofOption Filter.toJson r.expr),
    ("flattened", .bool r.flattened)]

def ContextAction.toJson : ContextAction → Json
  | .show => .string "show".toList
  | .clear => .string "clear".toList
  | .enter kind name => .object [(kind.name, .string name)]

def Plan.requestJson : Plan → Json
  | .create r => r.toJson
  | .update r => r.toJson
  | .list r => r.toJson
  | .view v l =>
    record [("view", ofOption (fun v => .string v.name) v), ("list", ofOption ListRequest.toJson l)]
  | .context a => record [("action", a.toJson)]

/-- See B.10 of the specification. -/
def Plan.toJson (p : Plan) : Json :=
  record [("plan", .string p.kind), ("request", p.requestJson)]

end Agenda
