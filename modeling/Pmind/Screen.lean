import Pmind.NodeHistory

/-!
# What the front end draws

Under the tabs is either a table of the nodes, with what the last moisture reading of each comes to,
or the history view of the tab: a list of the nodes, and the graph of the one that is selected.
-/

namespace Pmind

/-- A rule of thumb, for the seesaw moisture sensor. -/
def moistureState (moisture : UInt16) : String :=
  if 750 ≤ moisture ∧ moisture ≤ 1500 then "Good & moist"
  else if 501 ≤ moisture ∧ moisture ≤ 749 then "Ok (for now)"
  else if 401 ≤ moisture ∧ moisture ≤ 500 then "Danger Zone"
  else if 250 ≤ moisture ∧ moisture ≤ 400 then "WATER ME!"
  else "Invalid reading"

/-- The state the table has for a node with this history. -/
def lastState (history : List NodeSensorReading) : String :=
  match history.getLast? with
  | none => "Waiting"
  | some last => moistureState last.data.soil.moisture

def tabs : List String := ["Nodes", "Moisture", "Temp", "Lux", "Lumens"]

structure TableRow where
  name : String
  addr : String
  state : String
deriving DecidableEq

inductive Selection where
  | table (rows : List TableRow)
  | history (nodes : NodeList) (graph : Option Graph)

def NodeHistory.selection (self : NodeHistory) : Selection := .history self.renderNodes self.render

namespace PlantMinder

/-- `iter` is the order the table goes through the nodes in. -/
def renderNodeLastTable (iter : List (Ipv6Addr × Node)) : List TableRow :=
  iter.map fun (addr, node) => ⟨node.name, addr.toText, lastState node.history⟩

/-- The tab `render_top` highlights. -/
def renderTop (self : PlantMinder) : Option String := tabs[self.tab]?

def renderSelection (self : PlantMinder) (iter : List (Ipv6Addr × Node)) : Selection :=
  match self.tab with
  | 0 => .table (renderNodeLastTable iter)
  | 1 => (NodeHistory.new (.new iter) self.row .moisture).selection
  | 2 => (NodeHistory.new (.new iter) self.row .temp).selection
  | 3 => (NodeHistory.new (.new iter) self.row .lux).selection
  | 4 => (NodeHistory.new (.new iter) self.row .lumens).selection
  | _ => .table (renderNodeLastTable iter)

end PlantMinder

end Pmind
