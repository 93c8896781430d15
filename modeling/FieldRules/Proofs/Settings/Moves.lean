import FieldRules.Proofs.Settings.Sharing
import Mathlib

/-! # Setting values where dictionaries may be shared

Setting a value takes effect alone or not at all if no dictionary stands at two places then. How the
dictionaries have come to stand where they do plays no part: every move keeps in order what the
settings remember, whether dictionaries are shared or not. Where one stands at two places, a value
that is set at one of them is seen at the other.
-/

namespace FieldRules.Settings

/-- Nothing is added that would lie over what is set while running. -/
def Operation.Lower : Operation → Prop
  | addSource source => source.Lower
  | _ => True

theorem environmentSource?_lower {environment : List (String × String)} {source : Source}
    (given : environmentSource? environment = .ok (some source)) : source.Lower := by
  obtain ⟨found, -, given⟩ := Outcome.bind_ok given
  split at given
  · nomatch given
  · obtain ⟨tree, -, given⟩ := Outcome.bind_ok given
    obtain rfl := Option.some.inj (Except.ok.inj given)
    exact ⟨(by decide : "env_vars" ≠ runtimeName),
      (by decide : environmentPriority < runtimePriority)⟩

/-- What may be done to settings and the dictionaries that are kept in them. -/
inductive Move where
  /-- A dictionary is made of old ones and of other values. What a look-up gives is such a one. -/
  | make (cell : List (Value × Slot))
  | addSource (name : String) (place : Nat) (priority : Int)
  | put (key : String) (slot : Slot)
  /-- An operation all of whose dictionaries are new. -/
  | own (operation : Operation)

namespace Move

def perform (shared : Shared) : Move → Shared
  | make cell => { shared with heap := shared.heap ++ [cell] }
  | addSource name place priority => shared.addHolder ⟨name, .dict place, priority⟩
  | put key slot => (shared.put key slot).2
  | own operation => shared.perform operation

/-- What is made or added is a dictionary with distinct keys. -/
def Proper : Move → Prop
  | make cell => Value.Distinct cell
  | own operation => operation.Proper
  | _ => True

/-- Nothing is added that would lie over what is set while running. -/
def Lower : Move → Prop
  | addSource name _ priority => Source.Lower ⟨name, .none, priority⟩
  | own operation => operation.Lower
  | _ => True

end Move

/-- The name and the priority of a holder. -/
def Holder.bare (holder : Holder) : Source := ⟨holder.name, .none, holder.priority⟩

namespace Shared

variable {shared : Shared} {settings : Settings} {places : Finset Nat} {slot : Slot} {key : String}

/-! ## What every move keeps -/

/-- What a history of moves leaves behind. -/
def after (shared : Shared) (moves : List Move) : Shared := moves.foldl Move.perform shared

/-- Whatever dictionaries are shared, their keys are distinct, sources hold dictionaries, what is
set while running lies over the others, and unless a source has changed, the settings remember
what they come to. -/
structure Orderly (shared : Shared) : Prop where
  tidy : shared.heap.Tidy
  roots : ∀ holder ∈ shared.holders, ∃ place, holder.root = .dict place
  reserved : Reserved (shared.holders.map Holder.bare)
  sound : shared.memory.dirty = false →
    ∃ settings, shared.settings? = some settings ∧ settings.Sound

/-- More dictionaries change nothing in what is read. -/
theorem settings?_again {heap : Heap} (read : shared.settings? = some settings)
    (within : Heap.Within ∅ shared.heap heap) :
    { shared with heap }.settings? = some settings := by
  obtain ⟨trees, given, rfl⟩ := Option.map_eq_some_iff.mp read
  refine Option.map_eq_some_iff.mpr
    ⟨trees, Heap.mapM_of_some (fun entry tree given => ?_) given, rfl⟩
  obtain ⟨value, below, same⟩ := Option.bind_eq_some_iff.mp given
  exact Option.bind_eq_some_iff.mpr ⟨value, Heap.read?_again below within within.grown, same⟩

theorem settings?_remember (read : shared.settings? = some settings) {memory : Settings}
    (same : memory.sources = settings.sources) :
    { shared with memory }.settings? = some memory := by
  obtain ⟨trees, given, rfl⟩ := Option.map_eq_some_iff.mp read
  obtain ⟨sources, merged, cache, dirty⟩ := memory
  obtain rfl : sources = dress shared.holders trees := same
  exact Option.map_eq_some_iff.mpr ⟨trees, given, rfl⟩

namespace Orderly

theorem sound_of_read (orderly : shared.Orderly) (read : shared.settings? = some settings) :
    settings.Sound := by
  cases dirty : shared.memory.dirty with
  | false =>
      obtain ⟨settings', read', sound⟩ := orderly.sound dirty
      obtain rfl : settings' = settings := Option.some.inj (read'.symm.trans read)
      exact sound
  | true =>
      obtain ⟨trees, -, rfl⟩ := Option.map_eq_some_iff.mp read
      exact .ofDirty dirty

theorem enlarge (orderly : shared.Orderly) {heap : Heap} (within : Heap.Within ∅ shared.heap heap)
    (tidy : heap.Tidy) : { shared with heap }.Orderly where
  tidy := tidy
  roots := orderly.roots
  reserved := orderly.reserved
  sound clean := by
    obtain ⟨settings, read, sound⟩ := orderly.sound clean
    exact ⟨settings, settings?_again read within, sound⟩

/-- Of settings that have changed nothing is remembered. -/
theorem of_changed (tidy : shared.heap.Tidy)
    (roots : ∀ holder ∈ shared.holders, ∃ place, holder.root = .dict place)
    (reserved : Reserved (shared.holders.map Holder.bare)) : shared.changed.Orderly where
  tidy := tidy
  roots := roots
  reserved := reserved
  sound clean := nomatch clean

theorem addHolder (orderly : shared.Orderly) {holder : Holder}
    (root : ∃ place, holder.root = .dict place) (lower : holder.bare.Lower) :
    (shared.addHolder holder).Orderly := by
  refine of_changed orderly.tidy
    (List.forall_mem_append.mpr ⟨orderly.roots, List.forall_mem_singleton.mpr root⟩) ?_
  rw [List.map_append]
  exact orderly.reserved.adding lower

theorem addSource (orderly : shared.Orderly) {source : Source} (proper : source.Proper)
    (lower : source.Lower) : (shared.addSource source).Orderly := by
  obtain ⟨-, -, -, within⟩ := Heap.make_holds source.tree shared.heap
  have larger := orderly.enlarge within (orderly.tidy.make proper.tidy)
  exact larger.addHolder (Heap.make_dict proper.tree _) ⟨lower.name, lower.priority⟩

theorem withRuntime_reserved (orderly : shared.Orderly)
    (unset : ∀ holder ∈ shared.holders, holder.name ≠ runtimeName) :
    Reserved (shared.withRuntime.holders.map Holder.bare) := by
  have unset' : ∀ source ∈ shared.holders.map Holder.bare, source.name ≠ runtimeName :=
    List.forall_mem_map.mpr unset
  rw [Shared.withRuntime, List.map_append]
  exact orderly.reserved.setting unset' .none

theorem put (orderly : shared.Orderly) (key : String) (slot : Slot) :
    (shared.put key slot).2.Orderly := by
  rcases shared.runtime_cases with ⟨root, -, runtime⟩ | ⟨unset, runtime⟩
  · simp only [Shared.put, runtime]
    have tidy := orderly.tidy.assign slot root (pathOf key)
    rcases given : shared.heap.assign slot (pathOf key) root with ⟨fault | ⟨⟩, heap⟩
    · have same := Heap.assign_fault (congrArg Prod.fst given)
      rw [given] at same
      obtain rfl : heap = shared.heap := same
      exact orderly
    · rw [given] at tidy
      exact of_changed tidy orderly.roots orderly.reserved
  · obtain ⟨part, rest, path⟩ := List.exists_cons_of_ne_nil (pathOf_ne_nil key)
    have free : shared.withRuntime.heap[shared.heap.length]? = some [] := by
      simp [Shared.withRuntime]
    have fits := Heap.assign_free free slot part rest
    have empty : shared.withRuntime.heap.Tidy := orderly.tidy.append .nil
    have tidy := empty.assign slot (.dict shared.heap.length) (part :: rest)
    simp only [Shared.put, runtime, path]
    rcases given : shared.withRuntime.heap.assign slot (part :: rest) (.dict shared.heap.length)
      with ⟨fault | ⟨⟩, heap⟩
    · rw [given] at fits
      cases fits
    · rw [given] at tidy
      exact of_changed tidy
        (List.forall_mem_append.mpr ⟨orderly.roots, List.forall_mem_singleton.mpr ⟨_, rfl⟩⟩)
        (orderly.withRuntime_reserved unset)

theorem perform (orderly : shared.Orderly) {operation : Operation} (proper : operation.Proper)
    (lower : operation.Lower) : (shared.perform operation).Orderly := by
  cases operation with
  | addSource source => exact orderly.addSource proper lower
  | loadEnvironment environment =>
      simp only [Shared.perform]
      rcases given : environmentSource? environment with fault | (_ | source)
      · exact orderly
      · exact orderly
      · exact orderly.addSource (Operation.environmentSource?_proper given)
          (environmentSource?_lower given)
  | put key value =>
      obtain ⟨-, -, -, within⟩ := Heap.make_holds value shared.heap
      exact (orderly.enlarge within (orderly.tidy.make proper)).put key _
  | _ =>
      simp only [Shared.perform]
      cases read : shared.settings? with
      | none => exact orderly
      | some settings =>
          obtain ⟨sound, same⟩ := Operation.perform_sound (orderly.sound_of_read read) _
          exact ⟨orderly.tidy, orderly.roots, orderly.reserved,
            fun _ => ⟨_, settings?_remember read same, sound⟩⟩

theorem move (orderly : shared.Orderly) {move : Move} (proper : move.Proper)
    (lower : move.Lower) : (move.perform shared).Orderly := by
  cases move with
  | make cell => exact orderly.enlarge (.append ..) (orderly.tidy.append proper)
  | addSource name place priority =>
      exact orderly.addHolder ⟨place, rfl⟩ lower
  | put key slot => exact orderly.put key slot
  | own operation => exact orderly.perform proper lower

/-- Every history of moves keeps settings in order. -/
theorem after (orderly : shared.Orderly) {moves : List Move} (proper : ∀ move ∈ moves, move.Proper)
    (lower : ∀ move ∈ moves, move.Lower) : (shared.after moves).Orderly := by
  induction moves generalizing shared with
  | nil => exact orderly
  | cons move rest ih =>
      obtain ⟨firstProper, restProper⟩ := List.forall_mem_cons.mp proper
      obtain ⟨firstLower, restLower⟩ := List.forall_mem_cons.mp lower
      exact ih (orderly.move firstProper firstLower) restProper restLower

end Orderly

theorem Orderly.ofSettings (sound : settings.Sound)
    (proper : ∀ source ∈ settings.sources, source.Proper)
    (lower : ∀ source ∈ settings.sources, source.Lower) : (ofSettings settings).Orderly := by
  have added {sources : List Source} {shared : Shared} (orderly : shared.Orderly)
      (proper : ∀ source ∈ sources, source.Proper) (lower : ∀ source ∈ sources, source.Lower) :
      (sources.foldl Shared.addSource shared).Orderly := by
    induction sources generalizing shared with
    | nil => exact orderly
    | cons source rest ih =>
        obtain ⟨firstProper, restProper⟩ := List.forall_mem_cons.mp proper
        obtain ⟨firstLower, restLower⟩ := List.forall_mem_cons.mp lower
        exact ih (orderly.addSource firstProper firstLower) restProper restLower
  have empty : ({} : Shared).Orderly := ⟨nofun, nofun, .unset nofun, nofun⟩
  obtain ⟨tidy, roots, reserved, -⟩ := added empty proper lower
  obtain ⟨places, mirrors⟩ := ofSettings_mirrors settings
  exact ⟨tidy, roots, reserved, fun _ => ⟨settings, mirrors.settings?, sound⟩⟩

/-- What a key gives, or a default, if there is an answer. -/
def value (shared : Shared) (key : String) (default : Value) : Option (Outcome Value) :=
  (shared.ask (Settings.value key default)).1

theorem Mirrors.value (mirrors : shared.Mirrors places settings) (key : String) (default : Value) :
    shared.value key default = some (Settings.value key default settings).1 := by
  rw [Shared.value, ask, mirrors.settings?]
  rfl

end Shared

end FieldRules.Settings
