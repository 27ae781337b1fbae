/-
  ArrowLint.Proofs.Syntax.Respelling

  Trees with other texts. To respell a tree is to change the texts of its nodes and nothing else,
  so every step through the tree leads to where it has led before: what is found above, beside
  and below a respelled node are the nodes found before, respelled.
-/

import ArrowLint.Proofs.Syntax.Place

namespace ArrowLint

/-- The label `l` with its text respelled by `f`. -/
def Label.respell (f : String → String) (l : Label) : Label :=
  { l with text := l.text.map f }

@[simp] theorem Label.isNamed_respell (f : String → String) (l : Label) :
    (l.respell f).isNamed = l.isNamed := rfl

namespace Tree

mutual

/-- A tree with the text of every node respelled by `f`. -/
def respell (f : String → String) : Tree → Tree
  | .node label children => .node (label.respell f) (respellForest f children)

/-- Neighbouring trees with the text of every node respelled by `f`. -/
def respellForest (f : String → String) : List Tree → List Tree
  | [] => []
  | t :: ts => respell f t :: respellForest f ts

end

variable {f : String → String}

theorem respellForest_eq (ts : List Tree) : respellForest f ts = ts.map (respell f) := by
  induction ts with
  | nil => rfl
  | cons t ts ih => rw [respellForest, ih, List.map_cons]

theorem respell_node (label : Label) (children : List Tree) :
    respell f (.node label children) = .node (label.respell f) (children.map (respell f)) := by
  rw [respell, respellForest_eq]

@[simp] theorem label_respell (t : Tree) : (t.respell f).label = t.label.respell f := by
  cases t
  rfl

@[simp] theorem children_respell (t : Tree) :
    (t.respell f).children = t.children.map (respell f) := by
  cases t
  exact respellForest_eq _

@[simp] theorem fills_respell (t : Tree) (g : Field) : (t.respell f).fills g = t.fills g := by
  rw [fills, label_respell]
  rfl

end Tree

/-- A step up with the texts on the way respelled by `f`. -/
def Step.respell (f : String → String) (s : Step) : Step :=
  ⟨s.label.respell f, s.before.map (Tree.respell f), s.after.map (Tree.respell f)⟩

variable {f : String → String}

theorem Step.rebuild_respell (s : Step) (t : Tree) :
    (s.respell f).rebuild (t.respell f) = (s.rebuild t).respell f := by
  rw [rebuild, rebuild, Tree.respell_node, List.map_append, List.map_cons, List.map_reverse]
  rfl

namespace Node

/-- The place of `n` in the tree that has been respelled by `f`. -/
def respell (f : String → String) (n : Node) : Node :=
  ⟨n.tree.respell f, n.path.map (Step.respell f)⟩

/-! ## What a node is -/

@[simp] theorem label_respell (n : Node) : (n.respell f).label = n.label.respell f :=
  Tree.label_respell n.tree

@[simp] theorem kind_respell (n : Node) : (n.respell f).kind = n.kind := by
  rw [kind, label_respell]
  rfl

@[simp] theorem start_respell (n : Node) : (n.respell f).start = n.start := by
  rw [start, label_respell]
  rfl

@[simp] theorem fills_respell (n : Node) (g : Field) :
    (n.respell f).tree.fills g = n.tree.fills g :=
  Tree.fills_respell n.tree g

theorem text_respell (n : Node) : (n.respell f).text = n.text.map f := by
  unfold text
  rw [label_respell, kind_respell, start_respell, Label.respell]
  cases n.label.text with
  | none => rfl
  | some s => rfl

/-! ## Up -/

@[simp] theorem parent_respell (n : Node) : (n.respell f).parent = n.parent.map (respell f) := by
  obtain ⟨tree, path⟩ := n
  cases path with
  | nil => rfl
  | cons s above => exact congrArg (fun t => some (Node.mk t _)) (s.rebuild_respell tree)

theorem climb_respell (t : Tree) (path : List Step) :
    climb (t.respell f) (path.map (Step.respell f)) = (climb t path).map (respell f) := by
  induction path generalizing t with
  | nil => rfl
  | cons s above ih =>
    rw [List.map_cons, climb, s.rebuild_respell, ih, climb, List.map_cons, respell]

@[simp] theorem ancestors_respell (n : Node) :
    (n.respell f).ancestors = n.ancestors.map (respell f) :=
  climb_respell n.tree n.path

@[simp] theorem isParentField_respell (n : Node) (g : Field) :
    (n.respell f).isParentField g = n.isParentField g := by
  obtain ⟨tree, path⟩ := n
  cases path with
  | nil => rfl
  | cons s above => simp [isParentField, respell, Step.respell, List.all_map, Function.comp_def]

@[simp] theorem isClassMember_respell (n : Node) :
    (n.respell f).isClassMember = n.isClassMember := by
  unfold isClassMember
  rw [parent_respell]
  cases n.parent with
  | none => rfl
  | some p => exact congrArg (· == Kind.classBody) (kind_respell p)

/-! ## Down -/

theorem spread_respell (label : Label) (above : List Step) (before after : List Tree) :
    spread (label.respell f) (above.map (Step.respell f)) (before.map (Tree.respell f))
        (after.map (Tree.respell f))
      = (spread label above before after).map (respell f) := by
  induction after generalizing before with
  | nil => rfl
  | cons t after ih =>
    rw [List.map_cons, spread, ← List.map_cons, ih, spread, List.map_cons]
    rfl

@[simp] theorem children_respell (n : Node) :
    (n.respell f).children = n.children.map (respell f) := by
  rw [children, label_respell]
  exact (congrArg _ (Tree.children_respell n.tree)).trans (spread_respell _ _ [] _)

@[simp] theorem field_respell (n : Node) (g : Field) :
    (n.respell f).field g = (n.field g).map (respell f) := by
  have hfills : (fun m : Node => m.tree.fills g) ∘ respell f = fun m => m.tree.fills g :=
    funext fun m => fills_respell m g
  unfold field
  rw [children_respell, List.find?_map, hfills]

@[simp] theorem statements_respell (n : Node) :
    (n.respell f).statements = n.statements.map (respell f) := by
  simp [statements, namedChildren, List.filter_map, Function.comp_def]

@[simp] theorem tokensBefore_respell (n : Node) (stop : Option Node) :
    (n.respell f).tokensBefore (stop.map (respell f)) = (n.tokensBefore stop).map (respell f) := by
  cases stop with
  | none => exact children_respell n
  | some stop => simp [tokensBefore, List.takeWhile_map, Function.comp_def]

mutual

theorem visit_respell (above : List Step) (t : Tree) :
    visit (above.map (Step.respell f)) (t.respell f) = (visit above t).map (respell f) := by
  match t with
  | .node label children =>
    have h := visitForest_respell label above [] children
    rw [List.map_nil] at h
    rw [Tree.respell_node, visit, h, visit, List.map_cons, respell, Tree.respell_node]

theorem visitForest_respell (label : Label) (above : List Step) (before trees : List Tree) :
    visitForest (label.respell f) (above.map (Step.respell f)) (before.map (Tree.respell f))
        (trees.map (Tree.respell f))
      = (visitForest label above before trees).map (respell f) := by
  match trees with
  | [] => rfl
  | t :: after =>
    have hfirst := visit_respell (⟨label, before, after⟩ :: above) t
    have hrest := visitForest_respell label above (t :: before) after
    rw [List.map_cons, visitForest, ← List.map_cons, hrest, visitForest, List.map_append,
      ← hfirst]
    rfl

end

@[simp] theorem walk_respell (n : Node) : (n.respell f).walk = n.walk.map (respell f) :=
  visit_respell n.path n.tree

end Node

end ArrowLint
