import SjgControl.Disk
import Mathlib.Data.List.Sort

/-! A file system as programs read it that follow links, and what stands below a directory. -/
namespace Disk

variable {Name : Type} [DecidableEq Name]

/-- `follow` is the path that a path leads to once every link on the way is followed. -/
structure FileSystem (Name : Type) [DecidableEq Name] where
  tree : Tree Name
  follow : List Name → List Name
  settled : ∀ p n, tree.node p = some n → n ≠ .link → follow p = p

namespace FileSystem
variable (fs : FileSystem Name)

def found (p : List Name) : Option Node := fs.tree.node (fs.follow p)

def read (p : List Name) : Option (List UInt8) := fs.tree.content (fs.follow p)

def present (p : List Name) : Prop := fs.follow p = [] ∨ fs.found p ≠ none

def isFile (p : List Name) : Prop := ∃ content mode owner, fs.found p = some (.file content mode owner)

instance (p : List Name) : Decidable (fs.isFile p) :=
  match here : fs.found p with
  | some (.file content mode owner) => isTrue ⟨content,mode,owner,here⟩
  | none | some .link | some .special | some (.directory _) => isFalse (by simp [isFile,here])

def isDirectory (p : List Name) : Prop := ∃ mode, fs.found p = some (.directory mode)

instance (p : List Name) : Decidable (fs.isDirectory p) :=
  match here : fs.found p with
  | some (.directory mode) => isTrue ⟨mode,here⟩
  | none | some .link | some .special | some (.file _ _ _) => isFalse (by simp [isDirectory,here])

instance (p : List Name) : Decidable (fs.present p) := inferInstanceAs (Decidable (fs.follow p = [] ∨ fs.found p ≠ none))

/-- Below a directory, at a path, there is a regular file with these bytes and bits; no link on
the way leads out of the directory. -/
def Holds (base p : List Name) (content : List UInt8) (mode : Mode) : Prop :=
  base <+: fs.follow (base ++ p) ∧ ∃ owner, fs.found (base ++ p) = some (.file content mode owner)

variable {fs} {base p : List Name} {content : List UInt8} {mode : Mode}

theorem found_settled {n : Node} (here : fs.tree.node p = some n) (plain : n ≠ .link) : fs.found p = some n := by
  rw [found,fs.settled p n here plain,here]

theorem Holds.settled {owner : Nat} (here : fs.tree.node (base ++ p) = some (.file content mode owner)) :
    fs.Holds base p content mode := by
  have own := fs.settled _ _ here (by rintro ⟨⟩)
  refine ⟨?_,owner,by rw [found,own,here]⟩
  rw [own]
  exact List.prefix_append _ _

theorem Holds.read (holds : fs.Holds base p content mode) : fs.read (base ++ p) = some content := by
  obtain ⟨_,owner,here⟩ := holds
  unfold FileSystem.read Tree.content
  rw [← found,here]

end FileSystem

namespace Tree
variable (t : Tree Name)

/-- What stands below a directory, by the way down from it. -/
def below (d : List Name) : List (List Name × Node) :=
  t.entries.entries.filterMap (fun entry =>
    if d <+: entry.1 ∧ entry.1 ≠ d then some (entry.1.drop d.length,entry.2) else none)

variable {t} {d p : List Name} {n : Node}

theorem mem_entries_entries : (⟨p,n⟩ : Sigma fun _ : List Name => Node) ∈ t.entries.entries ↔ t.node p = some n :=
  (AList.mem_lookup_iff).symm

theorem mem_below : (p,n) ∈ t.below d ↔ p ≠ [] ∧ t.node (d ++ p) = some n := by
  rw [below,List.mem_filterMap]
  constructor
  · rintro ⟨⟨q,m⟩,member,kept⟩
    dsimp only at kept
    split at kept
    next inside =>
      obtain ⟨⟨rest,rfl⟩,proper⟩ := inside
      rw [List.drop_left] at kept
      cases kept
      refine ⟨fun empty => proper ?_,mem_entries_entries.mp member⟩
      rw [empty,List.append_nil]
    next => cases kept
  · rintro ⟨some_,here⟩
    refine ⟨⟨d ++ p,n⟩,mem_entries_entries.mpr here,?_⟩
    have proper : d ++ p ≠ d := fun same => some_ (List.append_right_eq_self.mp same)
    dsimp only
    rw [if_pos ⟨List.prefix_append _ _,proper⟩,List.drop_left]

theorem below_nodup : ((t.below d).map Prod.fst).Nodup := by
  have keys : (t.entries.entries.map Sigma.fst).Nodup := t.entries.nodupKeys
  have paths : (t.below d).map Prod.fst =
      (t.entries.entries.map Sigma.fst).filterMap (fun p => if d <+: p ∧ p ≠ d then some (p.drop d.length) else none) := by
    rw [below,List.map_filterMap,List.filterMap_map]
    apply List.filterMap_congr
    intro entry _
    simp only [Function.comp_apply]
    split
    next => rfl
    next => rfl
  rw [paths]
  refine keys.filterMap (fun p q r first second => ?_)
  split at first
  next above =>
    split at second
    next beneath =>
      obtain ⟨⟨rest,rfl⟩,_⟩ := above
      obtain ⟨⟨more,rfl⟩,_⟩ := beneath
      rw [List.drop_left] at first second
      cases first
      cases second
      rfl
    next => cases second
  next => cases first

/-- Files before directories, and names in order: as a walk from above meets them that takes the
files of a directory before it goes on. -/
def met (before : Name → Name → Bool) : List Name → List Name → Bool
  | [],_ => true
  | _::_,[] => false
  | [a],[b] => before a b
  | [_],_::_::_ => true
  | _::_::_,[_] => false
  | a::p,b::q => if a = b then met before p q else before a b

def walk (t : Tree Name) (before : Name → Name → Bool) : List (List Name × Node) :=
  (t.below []).insertionSort (fun a b => met before a.1 b.1)

theorem mem_walk {before : Name → Name → Bool} : (p,n) ∈ t.walk before ↔ t.node p = some n := by
  rw [walk,List.mem_insertionSort,mem_below,List.nil_append]
  refine ⟨fun member => member.2,fun here => ⟨?_,here⟩⟩
  rintro rfl
  rw [node_root] at here
  cases here

/-- Put an entry where there is a directory for it. -/
def plant (t : Tree Name) (item : List Name × Node) : Tree Name :=
  if free : t.accepts item.1 then t.put item.1 item.2 free else t

theorem node_plant {item : List Name × Node} (inside : (t.plant item).node p ≠ none) : t.node p ≠ none ∨ p = item.1 := by
  unfold plant at inside
  split at inside
  next free =>
    rw [node_put] at inside
    split at inside
    next here => exact .inr here
    next => exact .inl inside
  next => exact .inl inside

end Tree

/-! Changing permission bits. -/

def Node.regrade (file folder : Mode → Mode) : Node → Node
  | .file content mode owner => .file content (file mode) owner
  | .directory mode => .directory (folder mode)
  | .link => .link
  | .special => .special

/-- Every file and directory with the bits that it gets at its path. -/
def Tree.regrade (t : Tree Name) (files folders : List Name → Mode → Mode) : Tree Name where
  entries := ⟨t.entries.entries.map (fun entry => ⟨entry.1,entry.2.regrade (files entry.1) (folders entry.1)⟩),by
    have keys : (t.entries.entries.map (fun entry =>
        (⟨entry.1,entry.2.regrade (files entry.1) (folders entry.1)⟩ : Sigma fun _ => Node))).keys = t.entries.entries.keys := by
      simp [List.keys,Function.comp_def]
    rw [List.NodupKeys,keys]
    exact t.entries.nodupKeys⟩
  rooted inside := by
    apply t.rooted
    simpa [AList.mem_keys,AList.keys,List.keys,Function.comp_def] using inside
  grounded q name inside := by
    have old : q ++ [name] ∈ t.entries := by
      simpa [AList.mem_keys,AList.keys,List.keys,Function.comp_def] using inside
    rcases t.grounded q name old with root | ⟨mode,found⟩
    · exact .inl root
    · refine .inr ⟨folders q mode,?_⟩
      exact (List.dlookup_map₂ (f := fun p n => Node.regrade (files p) (folders p) n) q).trans
        (by rw [← AList.lookup,found]; rfl)

theorem Tree.node_regrade {t : Tree Name} (files folders : List Name → Mode → Mode) (p : List Name) :
    (t.regrade files folders).node p = (t.node p).map (Node.regrade (files p) (folders p)) :=
  List.dlookup_map₂ (f := fun p n => Node.regrade (files p) (folders p) n) p

theorem Node.regrade_link {file folder : Mode → Mode} {n : Node} : n.regrade file folder = .link ↔ n = .link := by
  cases n with
  | _ => simp [Node.regrade]

def FileSystem.regrade (fs : FileSystem Name) (files folders : List Name → Mode → Mode) : FileSystem Name where
  tree := fs.tree.regrade files folders
  follow := fs.follow
  settled p n here plain := by
    rw [Tree.node_regrade,Option.map_eq_some_iff] at here
    obtain ⟨old,here,rfl⟩ := here
    exact fs.settled p old here (fun link => plain (Node.regrade_link.mpr link))

/-! Permission bits as text. -/

namespace Mode

/-- `format(mode, "04o")`. -/
def octal (mode : Mode) : List Char :=
  [Nat.digitChar (mode.toNat / 512 % 8),Nat.digitChar (mode.toNat / 64 % 8),Nat.digitChar (mode.toNat / 8 % 8),
    Nat.digitChar (mode.toNat % 8)]

theorem octal_injective : Function.Injective octal := by
  intro one other same
  have digit {a b : Nat} (first : a < 8) (second : b < 8) (equal : Nat.digitChar a = Nat.digitChar b) : a = b := by
    have codes := congrArg Char.toNat equal
    rw [Nat.toNat_digitChar_of_lt_ten (by omega),Nat.toNat_digitChar_of_lt_ten (by omega)] at codes
    omega
  simp only [octal,List.cons.injEq,and_true] at same
  obtain ⟨a,b,c,d⟩ := same
  have first := digit (Nat.mod_lt _ (by omega)) (Nat.mod_lt _ (by omega)) a
  have second := digit (Nat.mod_lt _ (by omega)) (Nat.mod_lt _ (by omega)) b
  have third := digit (Nat.mod_lt _ (by omega)) (Nat.mod_lt _ (by omega)) c
  have fourth := digit (Nat.mod_lt _ (by omega)) (Nat.mod_lt _ (by omega)) d
  have small := one.isLt
  have bounded := other.isLt
  apply BitVec.eq_of_toNat_eq
  omega

end Mode
end Disk
