import Pmind.Minder

/-!
# The history views

`NodeHistory` lists the nodes, and shows the readings of one of them as a graph over time: the node
is picked by the active row, modulo the nodes there are. Its `render` goes through the node's
history once, for the points and for the extents of the axes. An `f64` there is a conversion of an
integer or of an `f32`, exact in both cases, or an integer added to one.
-/

namespace Pmind

inductive HistoryView where
  | lux
  | lumens
  | temp
  | moisture
deriving DecidableEq

/-- A reading `as f64`. -/
inductive F64 where
  | ofInt (i : ℤ)
  | ofF32 (x : Float32)

structure NodeHistoryState where
  nodes : List Node

/-- `iter` is the order `values()` goes through the nodes in. -/
def NodeHistoryState.new (iter : List (Ipv6Addr × Node)) : NodeHistoryState := ⟨iter.map Prod.snd⟩

structure NodeHistory where
  activeRow : ℕ
  state : NodeHistoryState
  view : HistoryView

/-- What `render_graph` draws: the bounds of the time axis are `minX` and `minX + 1000`. -/
structure Graph where
  points : List (ℤ × F64)
  minX : ℤ
  label : String
  yLabels : List String
  yBounds : ℤ × ℤ

/-- The list of the nodes: the names, and the row that is highlighted. -/
structure NodeList where
  names : List String
  selected : ℕ

/-- `unwrap_or_default` of the light record. -/
def SensorReading.lightOrDefault (d : SensorReading) : Light := d.light.getD ⟨0, 0⟩

namespace NodeHistory

def new (state : NodeHistoryState) (activeRow : ℕ) (view : HistoryView) : NodeHistory :=
  ⟨activeRow, state, view⟩

/-- The row that `render_nodes` highlights and `render` draws. -/
def row (self : NodeHistory) : ℕ :=
  if self.state.nodes.length = 0 then 0 else self.activeRow % self.state.nodes.length

def renderNodes (self : NodeHistory) : NodeList := ⟨self.state.nodes.map Node.name, self.row⟩

structure Extents where
  minT : ℤ
  maxL : ℤ

/-- The bounds after one more reading of the history. -/
def Extents.next (e : Extents) (h : NodeSensorReading) : Extents :=
  let ts := h.data.ts.toInt
  let fs : ℤ := h.data.lightOrDefault.fs.toNat
  let minT := if e.minT = 0 then ts else e.minT
  let minT := if ts < minT then ts else minT
  let maxL := if e.maxL = 0 then fs else e.maxL
  let maxL := if fs < maxL then fs else maxL
  ⟨minT, maxL⟩

def extents (history : List NodeSensorReading) : Extents := history.foldl Extents.next ⟨0, 0⟩

def point (view : HistoryView) (h : NodeSensorReading) : ℤ × F64 :=
  (h.data.ts.toInt,
    match view with
    | .lux => .ofF32 h.data.lightOrDefault.lux
    | .lumens => .ofInt h.data.lightOrDefault.fs.toNat
    | .temp => .ofF32 h.data.soil.temp
    | .moisture => .ofInt h.data.soil.moisture.toNat)

def renderLux (points : List (ℤ × F64)) (minX : ℤ) : Graph where
  points := points
  minX := minX
  label := "Lux"
  yLabels := ["0", "500", "1100.0"]
  yBounds := (0, 1100)

def renderLumens (points : List (ℤ × F64)) (minX maxL : ℤ) : Graph where
  points := points
  minX := minX
  label := "Lumens (Full Spectrum)"
  yLabels := [toString (maxL - 500), toString (maxL + 500)]
  yBounds := (maxL - 200, maxL + 100)

def renderTemp (points : List (ℤ × F64)) (minX : ℤ) : Graph where
  points := points
  minX := minX
  label := "Temperature (F)"
  yLabels := ["35.0", "75.0", "105.0"]
  yBounds := (35, 105)

def renderMoisture (points : List (ℤ × F64)) (minX : ℤ) : Graph where
  points := points
  minX := minX
  label := "Moisture"
  yLabels := ["Dry", "Wet"]
  yBounds := (200, 1100)

def graph (view : HistoryView) (history : List NodeSensorReading) : Graph :=
  let e := extents history
  let points := history.map (point view)
  match view with
  | .lux => renderLux points e.minT
  | .lumens => renderLumens points e.minT e.maxL
  | .temp => renderTemp points e.minT
  | .moisture => renderMoisture points e.minT

/-- The graph drawn, if there is a node and it has a history. -/
def render (self : NodeHistory) : Option Graph :=
  match self.state.nodes[self.row]? with
  | some node => if node.history.isEmpty then none else some (graph self.view node.history)
  | none => none

end NodeHistory

end Pmind
