import Std.Data.ExtTreeMap
import Amalgam.Disk.Fault
import Amalgam.Text.Utf8

/-!
# Disks

A disk maps locations to nodes: files with their bytes, directories, and symbolic links with the text
they lead to. A location is the list of names on the way from the root. Beside its nodes a directory
may hold files whose names are bytes that are no text; nothing but a walk comes upon them. A location
may also have a limit to the bytes that can be written there. The type keeps four promises: above
every node lies a directory, every name is one that a file can have, files whose names are no text lie
in directories, and the current directory is there.

What a disk cannot express: directories and links with names that are no text, links with a target
that is none, several names for one file other than by links, permissions, and failures of reading.

Main results:

* `node?_put`, `keeps_put`: putting a node changes what lies at its location and nothing else.
* `node?_erase`: erasing takes away the location and all below it and nothing else.
* `above_of_node?`: above every node lies a directory.
* `ext`: two disks are equal when the same lies at every location.
-/

namespace Amalgam

/-- The names on the way from the root. -/
abbrev Location := List String

/-- How many bytes a name may have. -/
def nameLimit : Nat := 255

/-- Whether a file can have the name. -/
def IsFileName (name : String) : Prop :=
  name ≠ "" ∧ name ≠ "." ∧ name ≠ ".." ∧ '/' ∉ name.toList ∧ '\x00' ∉ name.toList ∧
    name.utf8ByteSize ≤ nameLimit

instance (name : String) : Decidable (IsFileName name) :=
  inferInstanceAs (Decidable (_ ∧ _ ∧ _ ∧ _ ∧ _ ∧ _))

/-- A name that a file can have and that is no text. -/
structure RawName where
  bytes : List UInt8
  no_text : Text.Utf8.isWellFormed bytes = false
  no_slash : '/'.toUInt8 ∉ bytes
  no_nul : 0 ∉ bytes
  size : bytes.length ≤ nameLimit

/-- How many bytes can be written to a location, and the fault that a writer of more meets. -/
structure Limit where
  room : Nat
  fault : Fault

/-- What lies at a location. -/
inductive Node where
  | file (bytes : List UInt8)
  | dir
  | link (target : String)
deriving DecidableEq

/-- What lies at a location, given what lies at each location but the root, which is a directory. -/
def Node.at? (nodes : Std.ExtTreeMap Location Node) (location : Location) : Option Node :=
  if location = [] then some .dir else nodes[location]?

/-- The nodes of a disk and the location from which relative paths start. -/
structure Disk where
  nodes : Std.ExtTreeMap Location Node
  cwd : Location
  /-- The names of the files in the directory at a location whose names are no text. -/
  strays : Location → List RawName
  /-- The limit of a location, where there is one. -/
  limits : Location → Option Limit
  above : ∀ location ∈ nodes, location ≠ [] ∧ Node.at? nodes location.dropLast = some .dir
  named : ∀ location ∈ nodes, ∀ name ∈ location, IsFileName name
  strays_dir : ∀ location, strays location ≠ [] → Node.at? nodes location = some .dir
  cwd_dir : Node.at? nodes cwd = some .dir

namespace Disk

/-- The disk that holds the root only. -/
def empty : Disk where
  nodes := ∅
  cwd := []
  strays _ := []
  limits _ := none
  above := by simp
  named := by simp
  strays_dir := by simp
  cwd_dir := rfl

/-- What lies at a location. -/
def node? (d : Disk) (location : Location) : Option Node := Node.at? d.nodes location

@[simp] theorem node?_nil (d : Disk) : d.node? [] = some .dir := rfl

theorem node?_of_ne_nil (d : Disk) {location : Location} (h : location ≠ []) :
    d.node? location = d.nodes[location]? := by
  simp [node?, Node.at?, h]

theorem above_of_node? {d : Disk} {location : Location} {node : Node}
    (h : d.node? location = some node) : d.node? location.dropLast = some .dir := by
  by_cases h0 : location = []
  · subst h0; rfl
  · rw [node?_of_ne_nil d h0] at h
    exact (d.above location (Std.ExtTreeMap.mem_iff_isSome_getElem?.2 (by simp [h]))).2

/-- Every name on the way to a node is one that a file can have. -/
theorem isFileName_of_node? {d : Disk} {location : Location} {node : Node}
    (h : d.node? location = some node) {name : String} (hname : name ∈ location) :
    IsFileName name := by
  have hl : location ≠ [] := List.ne_nil_of_mem hname
  rw [node?_of_ne_nil d hl] at h
  exact d.named location (Std.ExtTreeMap.mem_iff_isSome_getElem?.2 (by simp [h])) name hname

theorem node?_cwd (d : Disk) : d.node? d.cwd = some .dir := d.cwd_dir

/-- Whether a disk has kept what no change of files and directories touches. -/
structure Keeps (e d : Disk) : Prop where
  cwd : e.cwd = d.cwd
  strays : e.strays = d.strays
  limits : e.limits = d.limits

theorem Keeps.refl (d : Disk) : d.Keeps d := ⟨rfl, rfl, rfl⟩

theorem Keeps.trans {d e f : Disk} (h : f.Keeps e) (h' : e.Keeps d) : f.Keeps d :=
  ⟨h.cwd.trans h'.cwd, h.strays.trans h'.strays, h.limits.trans h'.limits⟩

theorem ext {d e : Disk} (hkeeps : d.Keeps e) (h : ∀ l, d.node? l = e.node? l) : d = e := by
  obtain ⟨nodes, cwd, strays, limits, above, _, _, _⟩ := d
  obtain ⟨nodes', cwd', strays', limits', above', _, _, _⟩ := e
  obtain ⟨rfl, rfl, rfl⟩ : cwd = cwd' ∧ strays = strays' ∧ limits = limits' :=
    ⟨hkeeps.cwd, hkeeps.strays, hkeeps.limits⟩
  obtain rfl : nodes = nodes' := by
    apply Std.ExtTreeMap.ext_getElem?
    intro l
    by_cases hl : l = []
    · have hd : ∀ n : Std.ExtTreeMap Location Node, (∀ x ∈ n, x ≠ [] ∧ Node.at? n x.dropLast = some .dir) →
          n[([] : Location)]? = none := fun n hn =>
        Std.ExtTreeMap.getElem?_eq_none fun hm => (hn _ hm).1 rfl
      rw [hl, hd _ above, hd _ above']
    · simpa [node?, Node.at?, hl] using h l
  rfl

/-- Whether a node may be put at a location: it lies in a directory, takes no directory's place, and
has names that a file can have. -/
structure Free (d : Disk) (location : Location) : Prop where
  ne_nil : location ≠ []
  above : d.node? location.dropLast = some .dir
  not_dir : d.node? location ≠ some .dir
  named : ∀ name ∈ location, IsFileName name

instance (d : Disk) (location : Location) : Decidable (d.Free location) :=
  decidable_of_iff
    (location ≠ [] ∧ d.node? location.dropLast = some .dir ∧ d.node? location ≠ some .dir ∧
      ∀ name ∈ location, IsFileName name)
    ⟨fun h => ⟨h.1, h.2.1, h.2.2.1, h.2.2.2⟩, fun h => ⟨h.1, h.2, h.3, h.4⟩⟩

private theorem at?_insert {nodes : Std.ExtTreeMap Location Node} {location : Location} (node : Node)
    (h : location ≠ []) (l : Location) :
    Node.at? (nodes.insert location node) l = if l = location then some node else Node.at? nodes l := by
  simp only [Node.at?, Std.ExtTreeMap.getElem?_insert, Std.LawfulEqCmp.compare_eq_iff_eq]
  by_cases hl : l = []
  · simp [hl, Ne.symm h]
  · simp [hl, eq_comm]

private theorem at?_insert_of_dir {nodes : Std.ExtTreeMap Location Node} {location l : Location}
    (node : Node) (h : location ≠ []) (hnot : Node.at? nodes location ≠ some .dir)
    (hl : Node.at? nodes l = some .dir) : Node.at? (nodes.insert location node) l = some .dir := by
  rw [at?_insert node h, if_neg fun heq : l = location => hnot (heq ▸ hl), hl]

private theorem eq_or_mem_of_mem_insert {nodes : Std.ExtTreeMap Location Node}
    {location l : Location} {node : Node} (h : l ∈ nodes.insert location node) :
    l = location ∨ l ∈ nodes :=
  (Std.ExtTreeMap.mem_insert.1 h).imp (fun h => (Std.LawfulEqCmp.eq_of_compare h).symm) id

/-- The disk with a node put at a location; where none may be put it stays as it is. -/
def put (d : Disk) (location : Location) (node : Node) : Disk :=
  if h : d.Free location then
    { d with
      nodes := d.nodes.insert location node
      above := by
        intro l hl
        obtain ⟨hne, hup, hnot, _⟩ := h
        have old := eq_or_mem_of_mem_insert hl
        have hl0 : l ≠ [] := old.elim (fun h => h ▸ hne) fun h => (d.above l h).1
        exact ⟨hl0, at?_insert_of_dir node hne hnot
          (old.elim (fun h => h ▸ hup) fun h => (d.above l h).2)⟩
      named := fun l hl =>
        (eq_or_mem_of_mem_insert hl).elim (fun heq => heq ▸ h.named) (d.named l)
      strays_dir := fun l hl => at?_insert_of_dir node h.ne_nil h.not_dir (d.strays_dir l hl)
      cwd_dir := at?_insert_of_dir node h.ne_nil h.not_dir d.cwd_dir }
  else d

/-- Putting a node changes what lies at its location and nothing else. -/
theorem node?_put {d : Disk} {location : Location} (node : Node) (h : d.Free location)
    (l : Location) : (d.put location node).node? l = if l = location then some node else d.node? l := by
  simp only [put, h, dif_pos, node?]
  exact at?_insert node h.ne_nil l

theorem keeps_put (d : Disk) (location : Location) (node : Node) :
    (d.put location node).Keeps d := by
  rw [put]; split <;> exact ⟨rfl, rfl, rfl⟩

@[simp] theorem cwd_put (d : Disk) (location : Location) (node : Node) :
    (d.put location node).cwd = d.cwd :=
  (keeps_put d location node).cwd

private theorem at?_filter (nodes : Std.ExtTreeMap Location Node) (location : Location) (l : Location)
    (h : ¬ location <+: l) :
    Node.at? (nodes.filter fun key _ => !location.isPrefixOf key) l = Node.at? nodes l := by
  have hb : location.isPrefixOf l = false := by
    rw [Bool.eq_false_iff]; exact fun hp => h (List.isPrefixOf_iff_prefix.1 hp)
  by_cases hl : l = []
  · simp [Node.at?, hl]
  · simp only [Node.at?, hl, if_false]
    rw [Std.ExtTreeMap.getElem?_filter']
    cases hx : nodes[l]? <;> simp [hb]

private theorem mem_of_mem_filter {nodes : Std.ExtTreeMap Location Node} {location l : Location}
    (h : l ∈ nodes.filter fun key _ => !location.isPrefixOf key) :
    l ∈ nodes ∧ ¬ location <+: l := by
  obtain ⟨hm, hk⟩ := Std.ExtTreeMap.mem_filter.1 h
  refine ⟨hm, fun hp => ?_⟩
  simp [List.isPrefixOf_iff_prefix.2 hp] at hk

/-- The disk without a location and all below it; the way to the current directory stays. -/
def erase (d : Disk) (location : Location) : Disk :=
  if h : location <+: d.cwd then d
  else
    { d with
      nodes := d.nodes.filter fun key _ => !location.isPrefixOf key
      strays := fun l => if location <+: l then [] else d.strays l
      above := by
        intro l hl
        obtain ⟨hm, hkeep⟩ := mem_of_mem_filter hl
        refine ⟨(d.above l hm).1, ?_⟩
        rw [at?_filter]
        · exact (d.above l hm).2
        · exact fun hp => hkeep (hp.trans (List.dropLast_prefix l))
      named := fun l hl => d.named l (mem_of_mem_filter hl).1
      strays_dir := by
        intro l hl
        rw [ne_eq, ite_eq_left_iff, Classical.not_imp] at hl
        exact (at?_filter d.nodes location l hl.1).trans (d.strays_dir l hl.2)
      cwd_dir := (at?_filter d.nodes location d.cwd h).trans d.cwd_dir }

/-- Erasing takes away the location and all below it and nothing else. -/
theorem node?_erase {d : Disk} {location : Location} (h : ¬ location <+: d.cwd) (l : Location) :
    (d.erase location).node? l = if l ≠ [] ∧ location <+: l then none else d.node? l := by
  by_cases hl : l = []
  · simp [hl]
  · by_cases hp : location <+: l
    · simp only [node?, Node.at?, hl, if_false, erase, h, dif_neg, ne_eq, not_false_eq_true, hp,
        and_self, if_true]
      exact Std.ExtTreeMap.getElem?_eq_none fun hm => (mem_of_mem_filter hm).2 hp
    · simp only [hp, and_false, if_false]
      rw [erase, dif_neg h]
      exact at?_filter d.nodes location l hp

/-- The disk with one more file whose name is no text; where no directory lies it stays as it is. -/
def stray (d : Disk) (location : Location) (name : RawName) : Disk :=
  if h : d.node? location = some .dir then
    { d with
      strays := fun l => if l = location then name :: d.strays l else d.strays l
      strays_dir := by
        intro l hl
        split at hl
        · next heq => exact heq ▸ h
        · exact d.strays_dir l hl }
  else d

/-- A file whose name is no text lies beside the nodes. -/
@[simp] theorem node?_stray (d : Disk) (location : Location) (name : RawName) (l : Location) :
    (d.stray location name).node? l = d.node? l := by
  rw [stray]; split <;> rfl

@[simp] theorem cwd_stray (d : Disk) (location : Location) (name : RawName) :
    (d.stray location name).cwd = d.cwd := by
  rw [stray]; split <;> rfl

/-- The disk with a limit for a location. -/
def limit (d : Disk) (location : Location) (limit : Limit) : Disk :=
  { d with limits := fun l => if l = location then some limit else d.limits l }

/-- The disk with its current directory moved to a location, if a directory lies there. -/
def moveTo? (d : Disk) (location : Location) : Option Disk :=
  if h : d.node? location = some .dir then some { d with cwd := location, cwd_dir := h } else none

end Disk

end Amalgam
