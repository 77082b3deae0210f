import SceneCode.Layout.Piece

namespace SceneCode

namespace Trace

inductive Event where
  | started
  | unsupported (kind : String)
  | invisible (name : String)
  /-- A frame without size gives way to its children. -/
  | passedThrough (name : String)
  /-- The children of a frame stand in another order than its hint says. -/
  | hintDisagrees (name : String)
  | arranged (name : String)
  | emptyGroup (name : String)
  /-- A plain group at the top gives way to its children. -/
  | flattened (name : String)
  | emptyShape (name : String)
  | emptyLine (name : String)
  | emptyText (name : String)
deriving DecidableEq

def Event.message : Event → String
  | .started => "generating"
  | .unsupported _ => "skipping unsupported node"
  | .invisible _ => "skipping invisible node"
  | .passedThrough _ => "zero-size frame passes its children through"
  | .hintDisagrees _ => "inferred layout disagrees with child order; using it anyway"
  | .arranged _ => "resolved layout"
  | .emptyGroup _ => "skipping degenerate group"
  | .flattened _ => "flattening unstyled group"
  | .emptyShape _ => "skipping zero-size shape"
  | .emptyLine _ => "skipping zero-size line"
  | .emptyText _ => "skipping zero-size text"

/-- The name of the node, or its kind where it has no name. -/
def Event.subject? : Event → Option String
  | .started => none
  | .unsupported kind => some kind
  | .invisible name | .passedThrough name | .hintDisagrees name | .arranged name | .emptyGroup name
  | .flattened name | .emptyShape name | .emptyLine name | .emptyText name => some name

/-- A hint that is used is used as it is, even where the children do not follow it. -/
def disagreement (followHints : Bool) (base : Base) (layout : AutoLayout) (hint : Option AutoLayout)
    (children : List Node) : List Event :=
  if layout.flow?.isSome then []
  else
    match if followHints then hint.bind (·.flow?) else none with
    | some flow => if Layout.follows flow.direction children then [] else [.hintDisagrees base.name]
    | none => []

mutual
/-- The events for a node; `top` when no element surrounds it. -/
def node (followHints top : Bool) : Node → List Event
  | .frame base layout hint _ children =>
    if !base.visible then [.invisible base.name]
    else if base.isDegenerate then .passedThrough base.name :: nodes followHints top children
    else
      disagreement followHints base layout hint children ++
        .arranged base.name :: nodes followHints false children
  | .group base children =>
    if !base.visible then [.invisible base.name]
    else if base.isDegenerate || children.isEmpty then [.emptyGroup base.name]
    else if top && base.isPlain then .flattened base.name :: nodes followHints true children
    else nodes followHints false children
  | .shape .line base =>
    if !base.visible then [.invisible base.name]
    else if base.isDegenerateLine then [.emptyLine base.name] else []
  | .shape _ base =>
    if !base.visible then [.invisible base.name]
    else if base.isDegenerate then [.emptyShape base.name] else []
  | .text base _ =>
    if !base.visible then [.invisible base.name]
    else if base.isDegenerate then [.emptyText base.name] else []
  | .unknown => [.unsupported Node.unknown.kind]

def nodes (followHints top : Bool) : List Node → List Event
  | [] => []
  | n :: ns => node followHints top n ++ nodes followHints top ns
end

end Trace

def Scene.trace (followHints : Bool) (nodes : List Node) : List Trace.Event :=
  .started :: Trace.nodes followHints true nodes

end SceneCode
