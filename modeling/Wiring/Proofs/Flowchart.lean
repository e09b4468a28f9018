import Wiring.Proofs.Totality

/-! # The lines of a flowchart

Cut at its line feeds, a flowchart is its heading, a statement for each edge and, if there are
cycles, a heading of their own with the comments under it. Node names have no line feed, so the
statements are those of the edges, whatever the ids are. In a comment the ids stand as they are: it
is one line unless an id on its cycle has a line feed, and what comes after that is read as a line
of the flowchart.
-/

namespace Wiring

namespace Text

def lines (text : String) : List String := (text.toList.splitOn '\n').map String.ofList

private theorem lines_ne_nil (text : String) : lines text ≠ [] := by
  unfold lines
  rw [Ne, List.map_eq_nil_iff]
  exact List.splitOn_ne_nil '\n' text.toList

theorem lines_eq_singleton {text : String} (unbroken : '\n' ∉ text.toList) :
    lines text = [text] := by
  unfold lines
  rw [List.splitOn_eq_singleton unbroken, List.map_singleton, String.ofList_toList]

/-- A text is one line only if it has no line feed. -/
theorem length_lines_eq_one_iff {text : String} :
    (lines text).length = 1 ↔ '\n' ∉ text.toList := by
  constructor
  · intro single broken
    obtain ⟨before, after, cut⟩ := List.append_of_mem broken
    unfold lines at single
    rw [cut, List.splitOn_append_cons_self, List.length_map, List.length_append] at single
    have left := List.length_pos_of_ne_nil (List.splitOn_ne_nil '\n' before)
    have right := List.length_pos_of_ne_nil (List.splitOn_ne_nil '\n' after)
    omega
  · intro unbroken
    rw [lines_eq_singleton unbroken, List.length_singleton]

private theorem splitOn_intercalate_flatMap (parts : List (List Char)) (nonempty : parts ≠ []) :
    (['\n'].intercalate parts).splitOn '\n' = parts.flatMap (List.splitOn '\n') := by
  induction parts with
  | nil => contradiction
  | cons part parts ih =>
    cases parts with
    | nil => rw [List.intercalate_singleton, List.flatMap_singleton]
    | cons next parts =>
      rw [List.intercalate_cons_cons, List.append_assoc, List.singleton_append,
        List.splitOn_append_cons_self, ih (List.cons_ne_nil next parts), ← List.flatMap_cons]

/-- Joined lines are cut where they were joined, and where one of them was broken before. -/
theorem lines_joinLines {parts : List String} (nonempty : parts ≠ []) :
    lines (joinLines parts) = parts.flatMap lines := by
  have mapped : parts.map String.toList ≠ [] := by simpa using nonempty
  have cut := splitOn_intercalate_flatMap (parts.map String.toList) mapped
  have newline : "\n".toList = ['\n'] := rfl
  unfold lines joinLines join
  rw [String.toList_ofList, newline, cut, List.flatMap_map, List.map_flatMap]

end Text

namespace Graph

section Lines

/-- A name of ASCII letters, digits and underscores. -/
def IsNodeName (name : String) : Prop :=
  ∀ c ∈ name.toList,
    ('a' ≤ c ∧ c ≤ 'z') ∨ ('A' ≤ c ∧ c ≤ 'Z') ∨ ('0' ≤ c ∧ c ≤ '9') ∨ c = '_'

/-- The statement that an edge is drawn with. -/
def statement (edge : Edge) : String :=
  let arrow := if edge.circular = some true then " -.->|circular| " else " --> "
  "  " ++ nodeName edge.source ++ arrow ++ nodeName edge.target

/-- The comment on a cycle: its ids in order, and the first once more. -/
def comment (cycle : List String) : String :=
  "  %% " ++ Text.join " -> " (cycle ++ cycle.take 1)

/-- The lines of a flowchart with these lines on its cycles. -/
def chartLines (graph : Graph) (comments : List String) : List String :=
  "flowchart LR" :: graph.edges.map statement ++
    if graph.cycles = [] then [] else "" :: "  %% Circular Dependencies Detected:" :: comments

/-- A text with the lines of the flowchart and one comment for each cycle. -/
def WithinGrammar (graph : Graph) (text : String) : Prop :=
  ∃ comments, Text.lines text = graph.chartLines comments ∧
    comments.length = graph.cycles.length ∧
    ∀ comment ∈ comments, "  %% ".toList <+: comment.toList

end Lines

section Statements

theorem isNodeName_nodeName (id : String) : IsNodeName (nodeName id) := by
  intro c named
  rw [nodeName, String.toList_ofList] at named
  have kept : (c.isUpper || c.isLower || c.isDigit || c == '_') = true :=
    (List.mem_filter.mp named).2
  have inRange {low high : UInt32} (holds : (decide (c.val ≥ low) && decide (c.val ≤ high)) = true) :
      low ≤ c.val ∧ c.val ≤ high := by
    simpa using holds
  simp only [Bool.or_eq_true, beq_iff_eq] at kept
  rcases kept with ((upper | lower) | digit) | underscore
  · exact .inr (.inl (of_decide_eq_true upper))
  · exact .inl (inRange lower)
  · exact .inr (.inr (.inl (inRange digit)))
  · exact .inr (.inr (.inr underscore))

theorem IsNodeName.unbroken {name : String} (named : IsNodeName name) : '\n' ∉ name.toList := by
  intro broken
  have impossible := named '\n' broken
  revert impossible
  decide

private theorem edgeLine_eq_statement (edge : Edge) : edgeLine edge = statement edge := by
  unfold edgeLine statement
  split <;> simp [String.append_assoc, toString]

private theorem statement_unbroken (edge : Edge) : '\n' ∉ (statement edge).toList := by
  have source := (isNodeName_nodeName edge.source).unbroken
  have target := (isNodeName_nodeName edge.target).unbroken
  have arrow :
      '\n' ∉ (if edge.circular = some true then " -.->|circular| " else " --> ").toList := by
    split <;> decide
  simp only [statement, String.toList_append, List.mem_append, not_or]
  exact ⟨⟨⟨by decide, source⟩, arrow⟩, target⟩

end Statements

section Comments

private theorem cycleLine_eq_comment {cycle : List String} (nonempty : cycle ≠ []) :
    cycleLine cycle = .ok (comment cycle) := by
  obtain ⟨first, rest, rfl⟩ := List.exists_cons_of_ne_nil nonempty
  rfl

private theorem mapM_cycleLine {cycles : List (List String)}
    (nonempty : ∀ cycle ∈ cycles, cycle ≠ []) :
    cycles.mapM cycleLine = .ok (cycles.map comment) := by
  induction cycles with
  | nil => rfl
  | cons cycle cycles ih =>
    rw [List.forall_mem_cons] at nonempty
    rw [List.mapM_cons, cycleLine_eq_comment nonempty.1, ih nonempty.2]
    rfl

private theorem newline_mem_join {parts : List String} :
    '\n' ∈ (Text.join " -> " parts).toList ↔ ∃ part ∈ parts, '\n' ∈ part.toList := by
  rw [Text.join, String.toList_ofList]
  induction parts with
  | nil => simp
  | cons part parts ih =>
    cases parts with
    | nil => simp
    | cons next parts =>
      rw [List.map_cons, List.map_cons, List.intercalate_cons_cons, List.append_assoc,
        List.mem_append, List.mem_append, ← List.map_cons, ih, List.exists_mem_cons_iff]
      simp

/-- A comment is broken only by an id on its cycle. -/
theorem comment_unbroken_iff {cycle : List String} :
    '\n' ∉ (comment cycle).toList ↔ ∀ id ∈ cycle, '\n' ∉ id.toList := by
  have heading : '\n' ∉ "  %% ".toList := by decide
  rw [comment, String.toList_append, List.mem_append, newline_mem_join]
  constructor
  · intro unbroken id listed broken
    exact unbroken (.inr ⟨id, List.mem_append_left _ listed, broken⟩)
  · rintro unbroken (early | ⟨id, listed, broken⟩)
    · exact heading early
    · rcases List.mem_append.mp listed with listed | again
      · exact unbroken id listed broken
      · exact unbroken id (List.mem_of_mem_take again) broken

private theorem length_le_commentLines (cycles : List (List String)) :
    cycles.length ≤ (cycles.flatMap fun cycle => Text.lines (comment cycle)).length := by
  induction cycles with
  | nil => exact Nat.le_refl 0
  | cons cycle cycles ih =>
    have one := List.length_pos_of_ne_nil (Text.lines_ne_nil (comment cycle))
    rw [List.flatMap_cons, List.length_append, List.length_cons]
    omega

/-- There is one comment line for each cycle only if every comment is one line. -/
theorem length_commentLines_eq_iff (cycles : List (List String)) :
    (cycles.flatMap fun cycle => Text.lines (comment cycle)).length = cycles.length ↔
      ∀ cycle ∈ cycles, ∀ id ∈ cycle, '\n' ∉ id.toList := by
  induction cycles with
  | nil => simp
  | cons cycle cycles ih =>
    have one := List.length_pos_of_ne_nil (Text.lines_ne_nil (comment cycle))
    have least := length_le_commentLines cycles
    rw [List.forall_mem_cons, ← ih, ← comment_unbroken_iff, ← Text.length_lines_eq_one_iff,
      List.flatMap_cons, List.length_append, List.length_cons]
    omega

end Comments

section Charts

variable {graph : Graph}

/-- A graph with nodes is drawn with a statement for each edge and a comment for each cycle. -/
theorem mermaid_eq_chartLines (inhabited : graph.nodes ≠ [])
    (nonempty : ∀ cycle ∈ graph.cycles, cycle ≠ []) :
    graph.mermaid = .ok (Text.joinLines (graph.chartLines (graph.cycles.map comment))) := by
  have edges : graph.edges.map edgeLine = graph.edges.map statement :=
    List.map_congr_left fun edge _ => edgeLine_eq_statement edge
  have drawn := mapM_cycleLine nonempty
  unfold mermaid cycleLines chartLines
  rw [if_neg (by simpa using inhabited), edges]
  split
  · rename_i none
    rw [none, if_pos rfl]
    rfl
  · rename_i some
    rw [drawn, if_neg some]
    rfl

/-- The lines of a chart are its own, but that the comments are broken further. -/
theorem lines_chart (comments : List String) :
    Text.lines (Text.joinLines (graph.chartLines comments)) =
      graph.chartLines (comments.flatMap Text.lines) := by
  have statements : (graph.edges.map statement).flatMap Text.lines = graph.edges.map statement := by
    rw [List.flatMap_map, ← List.flatMap_pure_eq_map]
    exact List.flatMap_congr fun edge _ => Text.lines_eq_singleton (statement_unbroken edge)
  have heading : Text.lines "flowchart LR" = ["flowchart LR"] :=
    Text.lines_eq_singleton (by decide)
  have blank : Text.lines "" = [""] := Text.lines_eq_singleton (by decide)
  have cycles : Text.lines "  %% Circular Dependencies Detected:" =
      ["  %% Circular Dependencies Detected:"] := Text.lines_eq_singleton (by decide)
  rw [Text.lines_joinLines (by simp [chartLines])]
  unfold chartLines
  rw [List.flatMap_append, List.flatMap_cons, heading, statements]
  split
  · rfl
  · rw [List.flatMap_cons, List.flatMap_cons, blank, cycles]
    rfl

/-- A graph with nodes is drawn line by line, and only its comments may be broken. -/
theorem exists_drawing (inhabited : graph.nodes ≠ [])
    (nonempty : ∀ cycle ∈ graph.cycles, cycle ≠ []) :
    ∃ text, graph.mermaid = .ok text ∧ Text.lines text = graph.chartLines
      (graph.cycles.flatMap fun cycle => Text.lines (comment cycle)) := by
  refine ⟨_, mermaid_eq_chartLines inhabited nonempty, ?_⟩
  rw [lines_chart, List.flatMap_map]

private theorem chartLines_inj {first second : List String} (cyclic : graph.cycles ≠ []) :
    graph.chartLines first = graph.chartLines second ↔ first = second := by
  simp [chartLines, cyclic]

/-- A drawing keeps to its grammar only if no id on a cycle has a line feed. -/
theorem withinGrammar_iff {text : String}
    (cut : Text.lines text =
      graph.chartLines (graph.cycles.flatMap fun cycle => Text.lines (comment cycle))) :
    graph.WithinGrammar text ↔ ∀ cycle ∈ graph.cycles, ∀ id ∈ cycle, '\n' ∉ id.toList := by
  constructor
  · rintro ⟨comments, spelled, counted, _⟩
    by_cases cyclic : graph.cycles = []
    · simp [cyclic]
    · rw [cut, chartLines_inj cyclic] at spelled
      rw [← length_commentLines_eq_iff, spelled, counted]
  · intro unbroken
    refine ⟨_, cut, (length_commentLines_eq_iff _).mpr unbroken, ?_⟩
    intro line listed
    obtain ⟨cycle, known, within⟩ := List.mem_flatMap.mp listed
    rw [Text.lines_eq_singleton (comment_unbroken_iff.mpr (unbroken cycle known)),
      List.mem_singleton] at within
    rw [within, comment, String.toList_append]
    exact List.prefix_append ..

end Charts

end Graph

namespace Pipeline

/-- The cycles of a graph that was built are not empty. -/
theorem cycle_ne_nil_of_build {config : Config} {records : List Record} {graph : Graph}
    (built : (build config records).value = .ok graph) : ∀ cycle ∈ graph.cycles, cycle ≠ [] := by
  cases resolving : resolve records with
  | error fault =>
    simp [build, resolving] at built
  | ok resolved =>
    rw [build_value config resolving] at built
    cases built
    exact Graph.cycle_ne_nil _ config.entries config.direction

/-- Cut at its line feeds, the flowchart of a graph that was built has its heading, the statements
of the edges, made of node names, and the lines of the comments. It keeps to one comment line for
each cycle, under their heading, exactly if no id on a cycle has a line feed. -/
theorem lines_renderMermaid (config : Config) (records : List Record) (graph : Graph)
    (built : (build config records).value = .ok graph) (inhabited : graph.nodes ≠ []) :
    ∃ text, (renderMermaid graph).value = .ok text ∧
      Text.lines text = graph.chartLines
        (graph.cycles.flatMap fun cycle => Text.lines (Graph.comment cycle)) ∧
      (∀ edge ∈ graph.edges, Graph.IsNodeName (Graph.nodeName edge.source) ∧
        Graph.IsNodeName (Graph.nodeName edge.target)) ∧
      (graph.WithinGrammar text ↔ ∀ cycle ∈ graph.cycles, ∀ id ∈ cycle, '\n' ∉ id.toList) := by
  obtain ⟨text, drawn, cut⟩ := Graph.exists_drawing inhabited (cycle_ne_nil_of_build built)
  refine ⟨text, drawn, cut, fun edge _ => ⟨?_, ?_⟩, Graph.withinGrammar_iff cut⟩
  · exact Graph.isNodeName_nodeName edge.source
  · exact Graph.isNodeName_nodeName edge.target

def needing (name type : String) : Record :=
  .facts ⟨some name, .service, "", [⟨"other", some type, true, [], none, none⟩], none⟩

/-- Two classes that need each other, and one beside their cycle with a line feed in its name. -/
def punctuated : List Record :=
  [needing "Users.Store" "Order-Log", needing "Order-Log" "Users.Store",
    needing "Audit\nTrail" "Order-Log"]

def punctuatedGraph : Graph where
  nodes := [⟨"Users.Store", .service⟩, ⟨"Order-Log", .service⟩, ⟨"Audit\nTrail", .service⟩]
  edges := [⟨"Users.Store", "Order-Log", none, none⟩,
    ⟨"Order-Log", "Users.Store", none, some true⟩, ⟨"Audit\nTrail", "Order-Log", none, none⟩]
  cycles := [["Users.Store", "Order-Log"]]

private theorem build_punctuated :
    (build ⟨.downstream, [], false⟩ punctuated).value = .ok punctuatedGraph := by
  rw [build_value _ rfl, Graph.markCycles, Graph.circularity,
    Graph.Search.all_eq_moment _ 12 (by decide +kernel)]
  decide +kernel

theorem lines_renderMermaid_punctuated :
    punctuatedGraph.nodes ≠ [] ∧
    ∃ text, (renderMermaid punctuatedGraph).value = .ok text ∧
      Text.lines text = ["flowchart LR", "  Users_Store --> Order_Log",
        "  Order_Log -.->|circular| Users_Store", "  AuditTrail --> Order_Log", "",
        "  %% Circular Dependencies Detected:",
        "  %% Users.Store -> Order-Log -> Users.Store"] ∧
      punctuatedGraph.WithinGrammar text := by
  obtain ⟨text, drawn, cut, _, kept⟩ :=
    lines_renderMermaid ⟨.downstream, [], false⟩ punctuated punctuatedGraph build_punctuated
      (by decide)
  refine ⟨by decide, text, drawn, ?_, kept.mpr (by decide)⟩
  rw [cut]
  decide +kernel

/-- Two classes that need each other, one named so that a line of its name is a statement. -/
def forging : List Record :=
  [needing "A\n  X --> Y" "B", needing "B" "A\n  X --> Y"]

def forgingGraph : Graph where
  nodes := [⟨"A\n  X --> Y", .service⟩, ⟨"B", .service⟩]
  edges := [⟨"A\n  X --> Y", "B", none, none⟩, ⟨"B", "A\n  X --> Y", none, some true⟩]
  cycles := [["A\n  X --> Y", "B"]]

private theorem build_forging :
    (build ⟨.downstream, [], false⟩ forging).value = .ok forgingGraph := by
  rw [build_value _ rfl, Graph.markCycles, Graph.circularity,
    Graph.Search.all_eq_moment _ 8 (by decide +kernel)]
  decide +kernel

/-- A class name adds a statement to a flowchart, by way of the comment on its cycle. -/
theorem renderMermaid_forged :
    (build ⟨.downstream, [], false⟩ forging).value = .ok forgingGraph ∧
    ∃ text, (renderMermaid forgingGraph).value = .ok text ∧
      "  X --> Y" ∈ Text.lines text ∧ "  X --> Y" ∉ forgingGraph.edges.map Graph.statement ∧
      ¬ forgingGraph.WithinGrammar text := by
  obtain ⟨text, drawn, cut⟩ : ∃ text, forgingGraph.mermaid = .ok text ∧ _ :=
    Graph.exists_drawing (by decide) (by decide)
  refine ⟨build_forging, text, drawn, ?_, by decide, ?_⟩
  · rw [cut]
    decide
  · rw [Graph.withinGrammar_iff cut]
    decide

end Pipeline

end Wiring
