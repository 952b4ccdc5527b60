import Pmind.Proofs.Database
import Pmind.Proofs.Frontend
import Pmind.Proofs.History
import Pmind.Screen

/-!
# What is drawn is what was processed

The table shows a history's last reading, and trimming a history keeps that. So the row of a
device's address shows the last reading processed of the device, wherever the device was when it
came. A history view draws the node whose row it highlights. A node keeps the name it was registered
with first, a registration that finds it only gives it a history. The tab goes round, so that a view
is always that of one of the tabs.
-/

namespace Pmind

open Transition HashMap

theorem lastState_suffix {history rs : List NodeSensorReading} (hs : history <:+ rs)
    (hlen : min rs.length 45 ≤ history.length) : lastState history = lastState rs := by
  rcases List.eq_nil_or_concat history with rfl | ⟨init, last, rfl⟩
  · have hrs : rs = [] := List.length_eq_zero_iff.mp (by simp only [List.length_nil] at hlen; omega)
    rw [hrs]
  · obtain ⟨pre, rfl⟩ := hs
    simp [lastState, ← List.append_assoc]

/-- The name of the row that is highlighted. -/
def NodeList.highlighted (list : NodeList) : Option String := list.names[list.selected]?

namespace PlantMinder

/-- The row of an address that has a node is the one row with the text of the address. -/
theorem table_row {nodes : HashMap Ipv6Addr Node} {iter : List (Ipv6Addr × Node)}
    (hiter : nodes.Iter iter) {a : Ipv6Addr} {n : Node} (hn : nodes.lookup a = some n) :
    (renderNodeLastTable iter).filter (fun row => row.addr = a.toText)
      = [⟨n.name, a.toText, lastState n.history⟩] := by
  have hmem : (a, n) ∈ iter := hiter.mem.mpr hn
  have hnd := hiter.nodup
  clear hiter hn
  induction iter with
  | nil => simp at hmem
  | cons e iter ih =>
    obtain ⟨addr, node⟩ := e
    rw [List.map_cons, List.nodup_cons] at hnd
    have hrest : renderNodeLastTable ((addr, node) :: iter)
        = ⟨node.name, addr.toText, lastState node.history⟩ :: renderNodeLastTable iter := rfl
    rw [hrest, List.filter_cons]
    rcases List.mem_cons.mp hmem with heq | hmem'
    · cases heq
      have hnil : (renderNodeLastTable iter).filter (fun row => row.addr = a.toText) = [] := by
        rw [List.filter_eq_nil_iff]
        intro row hrow htext
        obtain ⟨⟨b, m⟩, hb, rfl⟩ := List.mem_map.mp hrow
        have hba : b = a := Ipv6Addr.toText_injective (of_decide_eq_true htext)
        exact hnd.1 (List.mem_map.mpr ⟨(b, m), hb, hba⟩)
      simp [hnil]
    · have hne : addr ≠ a := by
        rintro rfl
        exact hnd.1 (List.mem_map.mpr ⟨(addr, n), hmem', rfl⟩)
      have htext : addr.toText ≠ a.toText := fun h => hne (Ipv6Addr.toText_injective h)
      rw [if_neg (by simpa using htext)]
      exact ih hmem' hnd.2

/-! ## The names -/

/-- Each node has the name of a registration at its address. -/
def Named (ls : List MinderEvent) (s : PlantMinder) : Prop :=
  ∀ a n, s.nodes.lookup a = some n →
    ∃ reg, .nodeState (.registration reg) ∈ ls ∧ reg.ip = a ∧ reg.name = n.name

theorem named_registration {ls : List MinderEvent} {s : PlantMinder} (h : Named ls s)
    {reg : Registration} (hreg : .nodeState (.registration reg) ∈ ls) :
    Named ls (s.nodeRegistration reg) := by
  intro a n hn
  rw [nodeRegistration_nodes] at hn
  split_ifs at hn with hip
  · cases hn
    rw [evict_nodes]
    split_ifs
    · exact ⟨reg, hreg, hip.symm, rfl⟩
    · rcases hold : s.nodes.lookup reg.ip with _ | m
      · exact ⟨reg, hreg, hip.symm, rfl⟩
      · obtain ⟨reg', hreg', hip', hname⟩ := h reg.ip m hold
        exact ⟨reg', hreg', hip'.trans hip.symm, hname⟩
  · exact h a n hn

theorem named_step {ls : List MinderEvent} {s s' : PlantMinder} {e : MinderEvent} (he : e ∈ ls)
    (h : Named ls s) (hs : step s e = some s') : Named ls s' := by
  obtain ⟨limit, buffer, keys, rfl, -, -, hn⟩ | ⟨reg, rfl, rfl⟩ | ⟨-, -, hn, -⟩ := step_cases hs
  · intro a n ha
    rw [hn, Option.map_eq_some_iff] at ha
    obtain ⟨m, hm, rfl⟩ := ha
    obtain ⟨reg, hreg, hip, hname⟩ := h a m hm
    exact ⟨reg, hreg, hip, by rw [hname, Node.took_name]⟩
  · exact named_registration h he
  · intro a n ha
    rw [hn] at ha
    exact h a n ha

theorem named_run {ls : List MinderEvent} {s : PlantMinder} (h : run step new ls = some s) :
    Named ls s :=
  run_invariant (fun _ _ _ he hQ hs => named_step he hQ hs)
    (fun a n hn => by simp [new] at hn) (fun _ he => he) h

/-! ## The history views -/

/-- What `render_selection` makes for a tab with a history view. -/
def historyView (s : PlantMinder) (iter : List (Ipv6Addr × Node)) (view : HistoryView) :
    NodeHistory :=
  .new (.new iter) s.row view

variable {s : PlantMinder} {iter : List (Ipv6Addr × Node)}

/-- There is a node under the row a view highlights, unless there is none at all. -/
theorem exists_highlighted (s : PlantMinder) (hne : iter ≠ []) (view : HistoryView) :
    ∃ a n, iter[(s.historyView iter view).row]? = some (a, n) := by
  have hpos : 0 < iter.length := List.length_pos_iff.mpr hne
  have hrow : (s.historyView iter view).row = s.row % iter.length := by
    simp [historyView, NodeHistory.row, NodeHistory.new, NodeHistoryState.new, hne]
  have hlt : (s.historyView iter view).row < iter.length := by
    rw [hrow]
    exact Nat.mod_lt _ hpos
  exact ⟨_, _, List.getElem?_eq_getElem hlt⟩

/-- The name that is highlighted and the graph are those of one node. -/
theorem highlighted {view : HistoryView} {a : Ipv6Addr} {n : Node}
    (h : iter[(s.historyView iter view).row]? = some (a, n)) :
    (s.historyView iter view).renderNodes.highlighted = some n.name
      ∧ (s.historyView iter view).render
        = if n.history = [] then none else some (NodeHistory.graph view n.history) := by
  have hnode : (s.historyView iter view).state.nodes[(s.historyView iter view).row]? = some n := by
    simp only [historyView, NodeHistory.new, NodeHistoryState.new, List.getElem?_map] at h ⊢
    rw [h]
    rfl
  refine ⟨?_, ?_⟩
  · simp only [NodeList.highlighted, NodeHistory.renderNodes, List.getElem?_map, hnode,
      Option.map_some]
  · simp only [NodeHistory.render, hnode, List.isEmpty_iff]
    rfl

/-- What is drawn of a device at `a` with the name `name`, where `rs` is what was processed of it:
its row of the table, and any history view in which it is the one highlighted. -/
structure Shown (s : PlantMinder) (iter : List (Ipv6Addr × Node)) (a : Ipv6Addr) (name : String)
    (rs : List NodeSensorReading) : Prop where
  table : (renderNodeLastTable iter).filter (fun row => row.addr = a.toText)
    = [⟨name, a.toText, lastState rs⟩]
  view : ∀ view n, iter[(s.historyView iter view).row]? = some (a, n) →
    (s.historyView iter view).renderNodes.highlighted = some name
      ∧ ∃ history, history <:+ rs ∧ min rs.length 45 ≤ history.length
        ∧ (s.historyView iter view).render
          = if history = [] then none else some (NodeHistory.graph view history)

/-- A device is drawn where it was last registered, by the name of a registration of its own. -/
theorem shown_of_registered {ls : List MinderEvent} (hu : UniqueAddrs ls)
    (h : run step new ls = some s) (hiter : s.nodes.Iter iter) {eui : Eui} {a : Ipv6Addr}
    (ha : registeredAt eui ls = some a) :
    ∃ reg, .nodeState (.registration reg) ∈ ls ∧ reg.eui = eui ∧ reg.ip = a
      ∧ Shown s iter a reg.name (outputs step (processed eui) new ls) := by
  rw [← nodeAddrs_run h] at ha
  have hf := follows_run hu h eui
  obtain ⟨n, hn⟩ := hf.node eui a ha
  obtain ⟨hs, hlen⟩ := hf.history a n ha hn
  obtain ⟨reg, hreg, hip, hname⟩ := named_run h a n hn
  obtain ⟨reg', hreg', heui', hip'⟩ := hf.registered eui a ha
  refine ⟨reg, hreg, ?_, hip, ?_, ?_⟩
  · rw [hu reg reg' hreg hreg' (hip.trans hip'.symm), heui']
  · rw [table_row hiter hn, lastState_suffix hs hlen, hname]
  · intro view m hm
    have heq : m = n := by
      have hlookup := hiter.mem.mp (List.mem_of_getElem? hm)
      rw [hn, Option.some.injEq] at hlookup
      exact hlookup.symm
    subst heq
    obtain ⟨hlist, hrender⟩ := highlighted hm
    exact ⟨by rw [hlist, hname], m.history, hs, hlen, hrender⟩

/-! ## The tab -/

/-- How often the commands went on to the next tab, less how often they went back. -/
def turned (cmds : List AppCmd) : ℤ := cmds.count .next - cmds.count .back

theorem turned_append (cmds cmds' : List AppCmd) :
    turned (cmds ++ cmds') = turned cmds + turned cmds' := by
  unfold turned
  rw [List.count_append, List.count_append]
  push_cast
  omega

theorem tab_handleAppCmd {s : PlantMinder} (h : s.tab < numTabs) (cmd : AppCmd) :
    (s.handleAppCmd cmd).tab < numTabs
      ∧ ((s.handleAppCmd cmd).tab : ℤ) = (s.tab + turned [cmd]) % numTabs := by
  unfold numTabs at *
  cases cmd with
  | next =>
    have hturn : turned [.next] = 1 := rfl
    have htab : (s.handleAppCmd .next).tab = if s.tab = 4 then 0 else s.tab + 1 := rfl
    rw [htab, hturn]
    split_ifs <;> omega
  | back =>
    have hturn : turned [.back] = -1 := rfl
    have htab : (s.handleAppCmd .back).tab = if s.tab = 0 then 4 else s.tab - 1 := rfl
    rw [htab, hturn]
    split_ifs <;> omega
  | _ =>
    simp only [handleAppCmd, turned]
    simp
    omega

theorem tab_step {s s' : PlantMinder} {e : MinderEvent} (h : step s e = some s') :
    (∃ cmd, e = .appCmd cmd ∧ s' = s.handleAppCmd cmd) ∨ e.cmds = [] ∧ s'.tab = s.tab := by
  unfold step at h
  split_ifs at h
  rcases e with ⟨limit, buffer, keys⟩ | cmd | reg | ⟨addr, state⟩
  · simp only [] at h
    split_ifs at h with hb
    refine Or.inr ⟨rfl, ?_⟩
    rw [(recvMany_some hb.2 h).1]
  · cases h
    exact Or.inl ⟨cmd, rfl, rfl⟩
  · cases h
    refine Or.inr ⟨rfl, ?_⟩
    simp only [handleNodeStateChange, nodeRegistration, evict]
    split_ifs <;> rfl
  · cases h
    exact Or.inr ⟨rfl, rfl⟩

/-- The tab goes round with the commands. -/
theorem tab_run {ls : List MinderEvent} {s : PlantMinder} (h : run step new ls = some s) :
    s.tab < numTabs ∧ (s.tab : ℤ) = turned (ls.flatMap MinderEvent.cmds) % numTabs := by
  refine run_induct (Q := fun ls s =>
    s.tab < numTabs ∧ (s.tab : ℤ) = turned (ls.flatMap MinderEvent.cmds) % numTabs)
    ⟨by decide, rfl⟩ ?_ h
  intro ls s e s' _ hQ hs
  rw [List.flatMap_append, List.flatMap_singleton, turned_append]
  rcases tab_step hs with ⟨cmd, rfl, rfl⟩ | ⟨he, htab⟩
  · obtain ⟨hlt, heq⟩ := tab_handleAppCmd hQ.1 cmd
    refine ⟨hlt, ?_⟩
    rw [heq, hQ.2, Int.emod_add_emod]
    rfl
  · have hnone : turned [] = 0 := rfl
    rw [he, hnone, add_zero, htab]
    exact hQ

/-! ## The screen -/

/-- The tab of a history view. -/
def viewTab : HistoryView → String
  | .moisture => "Moisture"
  | .temp => "Temp"
  | .lux => "Lux"
  | .lumens => "Lumens"

/-- What is drawn is what the highlighted tab says. -/
def Titled (s : PlantMinder) (iter : List (Ipv6Addr × Node)) : Prop :=
  (s.renderTop = some "Nodes" ∧ s.renderSelection iter = .table (renderNodeLastTable iter))
    ∨ ∃ view, s.renderTop = some (viewTab view)
      ∧ s.renderSelection iter = (s.historyView iter view).selection

theorem titled_of_tab {s : PlantMinder} (h : s.tab < numTabs) (iter : List (Ipv6Addr × Node)) :
    Titled s iter := by
  unfold numTabs at h
  unfold Titled renderTop renderSelection
  rcases hm : s.tab with _ | _ | _ | _ | _ | m
  · exact Or.inl ⟨rfl, rfl⟩
  · exact Or.inr ⟨.moisture, rfl, rfl⟩
  · exact Or.inr ⟨.temp, rfl, rfl⟩
  · exact Or.inr ⟨.lux, rfl, rfl⟩
  · exact Or.inr ⟨.lumens, rfl, rfl⟩
  · omega

end PlantMinder

namespace Frontend

open PlantMinder (UniqueAddrs Shown processed registeredAt turned Titled)

end Frontend

end Pmind
