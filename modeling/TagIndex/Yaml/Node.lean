import TagIndex.Yaml

/-!
Nodes of YAML documents as they are written: scalars in their styles, collections, marks, and
references to marked nodes. `Node.value?` is what a node stands for.
-/
namespace TagIndex.Yaml

inductive Node where
  | plain (s : String)
  /-- A scalar in quotes or in a block of its own, which is a text whatever it says. -/
  | quoted (s : String)
  | list (xs : List Node)
  | mapping (members : List (Node × Node))
  | reference (name : String)
  /-- A node that can be referred to by a name. -/
  | named (name : String) (n : Node)
  | tagged (tag : String) (n : Node)
  deriving Repr, Inhabited

/-- The values of the nodes with a name, the last one first. -/
abbrev Names := List (String × Yaml)

def Names.find? (ns : Names) (name : String) : Option Yaml := (List.find? (·.1 = name) ns).map (·.2)

/-- The tags under which any scalar is a text. -/
def textTags : List String := ["!", "!!str"]

/-- The tags under which any scalar means what a plain one does. -/
def plainTags : List String := ["!!null", "!!bool", "!!int", "!!float"]

namespace Node

/-- The text of a key, without its marks. Other scalars are as good as no known key. -/
def keyText? (ns : Names) : Node → Option String
  | plain s | quoted s => some s
  | named _ n | tagged _ n => keyText? ns n
  | reference name =>
    match ns.find? name with
    | some (.list _) | some (.mapping _) | none => none
    | some y => some (y.text?.getD "")
  | list _ | mapping _ => none

def scalar (tag : Option String) (isPlain : Bool) (s : String) : Yaml :=
  if tag.any textTags.contains then .text s
  else if isPlain || tag.any plainTags.contains then .ofPlain s
  else .text s

mutual

/-- The value of a node under a tag, with the names known before it; gives the names known after. A
name has to be known before it is referred to. -/
def valueWith (tag : Option String) (ns : Names) : Node → Option (Yaml × Names)
  | plain s => some (scalar tag true s, ns)
  | quoted s => some (scalar tag false s, ns)
  | list xs => (valuesOf ns xs).map fun (ys, ns) => (.list ys, ns)
  | mapping ms => (membersOf ns ms).map fun (ms, ns) => (.mapping ms, ns)
  | reference name => (ns.find? name).map fun y => (y, ns)
  | named name n => (n.valueWith tag ns).map fun (y, ns) => (y, (name, y) :: ns)
  | tagged tag n => n.valueWith (some tag) ns

def valuesOf (ns : Names) : List Node → Option (List Yaml × Names)
  | [] => some ([], ns)
  | x :: xs =>
    match x.valueWith none ns with
    | none => none
    | some (y, ns) => (valuesOf ns xs).map fun (ys, ns) => (y :: ys, ns)

def membersOf (ns : Names) : List (Node × Node) → Option (List (String × Yaml) × Names)
  | [] => some ([], ns)
  | (key, n) :: ms =>
    match key.keyText? ns, key.valueWith none ns with
    | some name, some (_, ns) =>
      match n.valueWith none ns with
      | none => none
      | some (y, ns) => (membersOf ns ms).map fun (ms, ns) => ((name, y) :: ms, ns)
    | _, _ => none

end

def value? (n : Node) : Option Yaml := (n.valueWith none []).map (·.1)

end Node
end TagIndex.Yaml
