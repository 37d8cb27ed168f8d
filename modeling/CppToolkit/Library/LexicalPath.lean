import Mathlib.Data.List.Basic
import Mathlib.Data.List.Infix
import Mathlib.Data.List.TakeWhile
import Mathlib.Order.Basic

/-! Path names of POSIX systems: joining them, and their normal form, which resolves the
components for the current and the parent directory without looking at a file system. -/
namespace CppToolkit.LexicalPath

def dot : UInt8 := 46

/-- `extension` of a file name: from its last dot on, unless that is its first byte. -/
def extension (fileName : List UInt8) : List UInt8 :=
  let behind := (fileName.reverse.takeWhile (· ≠ dot)).reverse
  if fileName = [dot, dot] ∨ fileName.length ≤ behind.length + 1 then [] else dot :: behind

inductive Component (α : Type) where
  | current
  | parent
  | name (a : α)
  deriving DecidableEq, Repr

/-- A normal path: how often it climbs, and the names it then goes down. -/
structure Normal (α : Type) where
  ups : Nat
  names : List α
  deriving DecidableEq, Repr

namespace Normal
variable {α : Type}

/-- The root, or the directory in which a relative path begins. -/
def base : Normal α := ⟨0, []⟩

/-- One component more. The parent of the root is the root. -/
def push (absolute : Bool) (n : Normal α) : Component α → Normal α
  | .current => n
  | .name a => { n with names := n.names ++ [a] }
  | .parent =>
      if n.names = [] then if absolute then n else { n with ups := n.ups + 1 }
      else { n with names := n.names.dropLast }

def walk (absolute : Bool) (n : Normal α) (components : List (Component α)) : Normal α :=
  components.foldl (push absolute) n

/-- `k` directories up. -/
def climb (absolute : Bool) (n : Normal α) (k : Nat) : Normal α :=
  ⟨if absolute then n.ups else n.ups + (k - n.names.length), n.names.take (n.names.length - k)⟩

/-- The path is the other one or leads into it. -/
def Under (p t : Normal α) : Prop := p.ups = t.ups ∧ t.names <+: p.names

instance [DecidableEq α] (p t : Normal α) : Decidable (Under p t) :=
  inferInstanceAs (Decidable (_ ∧ _))

section
variable {absolute : Bool} {n : Normal α}

theorem walk_append (front back : List (Component α)) :
    walk absolute n (front ++ back) = walk absolute (walk absolute n front) back :=
  List.foldl_append

@[simp] theorem walk_nil : walk absolute n [] = n := rfl

@[simp] theorem walk_current (components : List (Component α)) :
    walk absolute n (.current :: components) = walk absolute n components := rfl

theorem climb_zero (absolute : Bool) (n : Normal α) : climb absolute n 0 = n := by
  obtain ⟨ups, names⟩ := n
  simp only [climb, Nat.sub_zero, Nat.zero_sub, Nat.add_zero, ite_self, List.take_length]

/-- One directory more. -/
theorem push_parent_climb (absolute : Bool) (n : Normal α) (k : Nat) :
    push absolute (climb absolute n k) .parent = climb absolute n (k + 1) := by
  obtain ⟨ups, names⟩ := n
  by_cases out : names.length ≤ k
  · have none_ : names.length - k = 0 := by omega
    have none' : names.length - (k + 1) = 0 := by omega
    have more : k + 1 - names.length = k - names.length + 1 := by omega
    cases absolute <;> simp [push, climb, none_, none', more, Nat.add_assoc]
  · have left : names.take (names.length - k) ≠ [] := by
      intro empty
      have := congrArg List.length empty
      rw [List.length_take, List.length_nil] at this
      omega
    have here : k - names.length = 0 := by omega
    have here' : k + 1 - names.length = 0 := by omega
    have size : min (names.length - k) names.length - 1 = names.length - (k + 1) := by omega
    have less : min (names.length - (k + 1)) (names.length - k) = names.length - (k + 1) := by omega
    simp only [push, climb, if_neg left, here, here', Nat.add_zero, ite_self]
    rw [List.dropLast_eq_take, List.length_take, size, List.take_take, less]

/-- A path is walked as its own normal form says: up first, then down the names. -/
theorem walk_eq (absolute : Bool) (n : Normal α) (components : List (Component α)) :
    walk absolute n components =
      { climb absolute n (walk false base components).ups with
        names := (climb absolute n (walk false base components).ups).names ++
          (walk false base components).names } := by
  induction components using List.reverseRecOn with
  | nil =>
      change n = { climb absolute n 0 with names := (climb absolute n 0).names ++ [] }
      rw [climb_zero, List.append_nil]
  | append_singleton front last ih =>
      rw [walk_append, walk_append, ih]
      generalize walk false base front = own
      obtain ⟨k, rest⟩ := own
      cases last with
      | current => rfl
      | name a => simp [walk, push]
      | parent =>
          cases rest using List.reverseRecOn with
          | nil =>
              have up := push_parent_climb absolute n k
              simpa [walk, push] using up
          | append_singleton rest a _ => simp [walk, push]

/-- A relative path stays under the path that it is joined to exactly if it climbs no
further than to the beginning and goes back down what it has climbed. -/
theorem under_walk_iff (absolute : Bool) (t : Normal α) (components : List (Component α)) :
    Under (walk absolute t components) t ↔
      (absolute = true ∨ (walk false base components).ups ≤ t.names.length) ∧
        t.names.drop (t.names.length - (walk false base components).ups) <+:
          (walk false base components).names := by
  rw [walk_eq]
  generalize walk false base components = own
  obtain ⟨k, rest⟩ := own
  obtain ⟨ups, names⟩ := t
  have upward : (climb absolute ⟨ups, names⟩ k).ups = ups ↔
      absolute = true ∨ k ≤ names.length := by
    cases absolute <;> simp [climb]
    omega
  have downward : names <+: names.take (names.length - k) ++ rest ↔
      names.drop (names.length - k) <+: rest := by
    have shared := @List.prefix_append_right_inj _ (names.drop (names.length - k)) rest
      (names.take (names.length - k))
    rwa [List.take_append_drop] at shared
  exact and_congr upward downward

end

end Normal

def separator : UInt8 := 47

/-- A component between two separators; repeated separators leave nothing between them. -/
def Component.ofBytes (part : List UInt8) : Component (List UInt8) :=
  if part = [] ∨ part = [46] then .current
  else if part = [46, 46] then .parent
  else .name part

def components (path : List UInt8) : List (Component (List UInt8)) :=
  (path.splitOn separator).map Component.ofBytes

def isAbsolute (path : List UInt8) : Bool := path.head? = some separator

def hasFilename (path : List UInt8) : Bool := path ≠ [] ∧ path.getLast? ≠ some separator

/-- `path::append`: an absolute name replaces the path. -/
def append (path name : List UInt8) : List UInt8 :=
  if isAbsolute name then name
  else if hasFilename path then path ++ separator :: name
  else path ++ name

/-- What is behind the last separator. -/
def filename (path : List UInt8) : List UInt8 := (path.reverse.takeWhile (· ≠ separator)).reverse

/-- What `append` puts before a relative name. -/
def base (path : List UInt8) : List UInt8 := if hasFilename path then path ++ [separator] else path

/-- The path that a system call reads ends before the first zero byte. -/
def systemPath (path : List UInt8) : List UInt8 := path.takeWhile (· ≠ 0)

def normal (path : List UInt8) : Normal (List UInt8) :=
  .walk (isAbsolute path) .base (components path)

/-- After normalisation the path is the target or lies under it. -/
def Inside (path target : List UInt8) : Prop :=
  isAbsolute path = isAbsolute target ∧ (normal path).Under (normal target)

instance (path target : List UInt8) : Decidable (Inside path target) :=
  inferInstanceAs (Decidable (_ ∧ _))

section
variable {path target name : List UInt8}

theorem components_separated (path name : List UInt8) :
    components (path ++ separator :: name) = components path ++ components name := by
  simp only [components, List.splitOn_eq_splitOnP]
  rw [List.splitOnP_append_cons path name (by exact beq_self_eq_true separator), List.map_append]

theorem components_nil : components [] = [.current] := rfl

theorem isAbsolute_eq_false (plain : separator ∉ name) : isAbsolute name = false := by
  cases name with
  | nil => rfl
  | cons first rest =>
      refine decide_eq_false fun same => plain ?_
      rw [← Option.some.inj same]
      exact List.mem_cons_self

theorem append_eq_base (plain : separator ∉ name) (path : List UInt8) :
    append path name = base path ++ name := by
  rw [append, base, isAbsolute_eq_false plain, if_neg Bool.false_ne_true]
  split
  next => rw [List.append_assoc, List.singleton_append]
  next => rfl

theorem getLast?_base : ∀ last ∈ (base path).getLast?, last = separator := by
  unfold base
  split
  next =>
    rw [List.getLast?_concat]
    rintro last ⟨⟩
    rfl
  next bare =>
    intro last ends
    by_contra other
    refine bare (decide_eq_true ⟨?_, ?_⟩)
    · rintro rfl
      cases ends
    · rw [Option.mem_def.mp ends]
      exact fun same => other (Option.some.inj same)

theorem filename_append (plain : separator ∉ name) (path : List UInt8) :
    filename (append path name) = name := by
  have own : ∀ byte ∈ name.reverse, decide (byte ≠ separator) = true := by
    refine fun byte member => decide_eq_true fun same => plain ?_
    rw [← same]
    exact List.mem_reverse.mp member
  rw [filename, append_eq_base plain, List.reverse_append, List.takeWhile_append_of_pos own]
  have last : ∀ last ∈ (base path).getLast?, last = separator := getLast?_base
  rw [← List.head?_reverse] at last
  cases shape : (base path).reverse with
  | nil => rw [List.takeWhile_nil, List.append_nil, List.reverse_reverse]
  | cons byte rest =>
      have stop : byte = separator := last byte (by rw [shape]; rfl)
      rw [List.takeWhile_cons_of_neg (by simp [stop]), List.append_nil, List.reverse_reverse]

/-- A name without separators ends the path that it is appended to. -/
theorem base_append (plain : separator ∉ name) (some_ : name ≠ []) (path : List UInt8) :
    base (append path name) = append path name ++ [separator] := by
  refine if_pos (decide_eq_true ⟨?_, ?_⟩)
  · rw [append_eq_base plain]
    exact fun empty => some_ (List.append_eq_nil_iff.mp empty).2
  · rw [append_eq_base plain, List.getLast?_append_of_ne_nil _ some_]
    intro ends
    exact plain (List.mem_of_getLast? ends)

/-- An extension has its dot. -/
theorem extension_cases (fileName : List UInt8) :
    extension fileName = [] ∨ ∃ behind, extension fileName = dot :: behind := by
  unfold extension
  dsimp only
  split
  next => exact .inl rfl
  next => exact .inr ⟨_, rfl⟩

theorem isAbsolute_append (relative : isAbsolute name = false) (path : List UInt8) :
    isAbsolute (append path name) = isAbsolute path := by
  rw [append, relative, if_neg Bool.false_ne_true]
  cases path with
  | nil => exact relative
  | cons first rest => split <;> rfl

/-- A relative name is walked behind the path. -/
theorem walk_components_append (relative : isAbsolute name = false) (absolute : Bool)
    (n : Normal (List UInt8)) : n.walk absolute (components (append path name)) =
      (n.walk absolute (components path)).walk absolute (components name) := by
  rw [append, relative, if_neg Bool.false_ne_true]
  split
  next => rw [components_separated, Normal.walk_append]
  next bare =>
    cases path using List.reverseRecOn with
    | nil => rfl
    | append_singleton front last _ =>
        have ends : last = separator := by
          by_contra other
          refine bare (decide_eq_true ⟨List.concat_ne_nil _ _, ?_⟩)
          rw [List.getLast?_concat]
          exact fun same => other (Option.some.inj same)
        rw [ends, List.append_assoc, List.singleton_append, components_separated,
          components_separated, components_nil, Normal.walk_append, Normal.walk_append,
          Normal.walk_current, Normal.walk_nil]

/-- A relative name stays inside exactly if it climbs no further than to the beginning of
the target and goes back down what it has climbed. -/
theorem inside_append_iff (relative : isAbsolute name = false) :
    Inside (append target name) target ↔
      (isAbsolute target = true ∨ (normal name).ups ≤ (normal target).names.length) ∧
        (normal target).names.drop ((normal target).names.length - (normal name).ups) <+:
          (normal name).names := by
  have own : normal name = .walk false .base (components name) := by rw [normal, relative]
  have joined : normal (append target name) =
      (normal target).walk (isAbsolute target) (components name) := by
    rw [normal, isAbsolute_append relative, walk_components_append relative]
    rfl
  rw [Inside, isAbsolute_append relative, and_iff_right rfl, joined, own, Normal.under_walk_iff]

/-- Only a path without a zero byte is read as a whole. -/
theorem systemPath_whole_iff : systemPath path = path ↔ 0 ∉ path := by
  rw [systemPath, List.takeWhile_eq_self_iff]
  refine ⟨fun whole member => ?_, fun plain byte member => decide_eq_true fun zero => ?_⟩
  · exact of_decide_eq_true (whole 0 member) rfl
  · exact plain (zero ▸ member)

theorem isAbsolute_systemPath (path : List UInt8) :
    isAbsolute (systemPath path) = isAbsolute path := by
  cases path with
  | nil => rfl
  | cons first rest =>
      by_cases zero : first = 0
      · subst zero
        rfl
      · rw [systemPath, List.takeWhile_cons_of_pos (by exact decide_eq_true zero)]
        rfl

theorem systemPath_append_absolute (absolute : isAbsolute name = true) :
    systemPath (append path name) = systemPath name := by
  rw [append, if_pos absolute]

theorem systemPath_append_cut (relative : isAbsolute name = false) (cut : 0 ∈ path) :
    systemPath (append path name) = systemPath path := by
  have ends : ∀ rest : List UInt8, systemPath (path ++ rest) = systemPath path := by
    intro rest
    rw [systemPath, List.takeWhile_append, if_neg fun whole => ?_]
    · rfl
    · exact systemPath_whole_iff.mp ((List.takeWhile_prefix _).eq_of_length whole) cut
  rw [append, relative, if_neg Bool.false_ne_true]
  split
  next => exact ends _
  next => exact ends _

theorem systemPath_append (relative : isAbsolute name = false) (plain : 0 ∉ path) :
    systemPath (append path name) = append path (systemPath name) := by
  have behind : ∀ rest : List UInt8, systemPath (path ++ rest) = path ++ systemPath rest := by
    intro rest
    refine List.takeWhile_append_of_pos fun byte member => decide_eq_true fun zero => ?_
    exact plain (zero ▸ member)
  rw [append, append, isAbsolute_systemPath, relative, if_neg Bool.false_ne_true,
    if_neg Bool.false_ne_true]
  split
  next => rw [behind]; rfl
  next => exact behind name

/-- What a name must be like for a joined path to stay inside: an absolute name lies inside
itself, and a relative one climbs no further than to the beginning of the target and goes
back down what it has climbed. A target that is cut short is not left at all. -/
def Confined (target name : List UInt8) : Prop :=
  if isAbsolute name then Inside (systemPath name) (systemPath target)
  else 0 ∈ target ∨
    (isAbsolute target = true ∨ (normal (systemPath name)).ups ≤ (normal target).names.length) ∧
      (normal target).names.drop ((normal target).names.length - (normal (systemPath name)).ups) <+:
        (normal (systemPath name)).names

instance (target name : List UInt8) : Decidable (Confined target name) :=
  inferInstanceAs (Decidable (ite _ _ _))

theorem inside_self (path : List UInt8) : Inside path path := ⟨rfl, rfl, List.prefix_rfl⟩

theorem inside_systemPath_append_iff :
    Inside (systemPath (append target name)) (systemPath target) ↔ Confined target name := by
  unfold Confined
  split
  next absolute => rw [systemPath_append_absolute absolute]
  next given =>
    have relative := Bool.eq_false_iff.mpr given
    by_cases cut : 0 ∈ target
    · rw [systemPath_append_cut relative cut]
      exact iff_of_true (inside_self _) (.inl cut)
    · rw [systemPath_append relative cut, systemPath_whole_iff.mpr cut, or_iff_right cut]
      exact inside_append_iff ((isAbsolute_systemPath name).trans relative)

end

end CppToolkit.LexicalPath
