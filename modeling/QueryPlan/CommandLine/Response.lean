import QueryPlan.Isolate.Registry

/-! # Responses

A response is a JSON object on a line of its own: data with the status `ok`, or a code and a
message with the status `error`. -/
namespace QueryPlan

def PlanResponse.toJson (r : PlanResponse) : Json :=
  .object [("explain",.text r.explain),("plan",.text r.plan),
    ("tables",.array (r.tables.map .text))]

def Column.toJson (c : Column) : Json :=
  .object [("name",.text c.name),("type",.text c.type.text)]

def Table.toJson (t : Table) : Json :=
  .object [("columns",.array (t.columns.map Column.toJson)),("name",.text t.name)]

def Catalog.toJson (c : Catalog) : Json := .object [("tables",.array (c.tables.map Table.toJson))]

inductive Response where
  | data (j : Json)
  | failure (code message : String)

namespace Response

def toJson : Response → Json
  | data j => .object [("data",j),("status",.text "ok")]
  | failure code message =>
    .object [("code",.text code),("message",.text message),("status",.text "error")]

/-- The line of a response, without a line break. -/
def line (r : Response) : String := r.toJson.written

def ofPlan : Except IsolateError PlanResponse → Response
  | .ok r => data r.toJson
  | .error e => failure e.code e.message

def ofCatalog : Except CatalogError Catalog → Response
  | .ok c => data c.toJson
  | .error e => failure e.code e.message

end Response
end QueryPlan
