/-
# Where settings are looked for and stored

A key is looked for in some places of the document, and one that stands in a single place is found
there or not at all. What is found is converted and put into a field, and no setting touches the
field of another.
-/

import Zorkbot.Config.Load

namespace Zorkbot.Config

open Settings (Keeps bind_eq_ok)
open Zorkbot.Bot (Str)

variable {γ β : Type} {py : Python} {doc : Sections} {key : Str}

/-! ## What stands where -/

/-- A part of the document that can have a key. -/
inductive Spot
  | root
  | admin
  | adminUi
  | channel
  | botsChannel
  deriving DecidableEq

/-- What is under the keys of a value. -/
def Toml.entries : Toml → List (Str × Toml)
  | .table entries => entries
  | .str _ | .arr _ | .int _ | .float _ | .bool _ | .moment _ => []

/-- The value of a key in a part of the document. -/
def Sections.at_ (doc : Sections) (key : Str) : Spot → Option Toml
  | .root => Toml.find doc.data key
  | .admin => Toml.find doc.admin.entries key
  | .adminUi => Toml.find doc.adminUi.entries key
  | .channel => Toml.find doc.channel.entries key
  | .botsChannel => Toml.find doc.botsChannel.entries key

/-- A section that is no table has nothing, or raises. -/
theorem itemIfThere_eq {value : Toml} {found : Option Toml}
    (done : itemIfThere key value = .ok found) : found = Toml.find value.entries key := by
  obtain ⟨there, contains, done⟩ := bind_eq_ok done
  cases value with
  | table entries =>
      obtain rfl := Except.ok.inj contains
      cases held : Toml.find entries key with
      | none =>
          rw [held] at done
          exact (Except.ok.inj done).symm.trans held.symm
      | some value =>
          rw [held, Option.isSome_some, if_pos rfl, Toml.item, held] at done
          exact (Except.ok.inj done).symm.trans held.symm
  | str _ | arr _ =>
      cases there with
      | true => cases done
      | false => exact (Except.ok.inj done).symm
  | int _ | float _ | bool _ | moment _ => cases contains

theorem get_eq {value : Toml} {found : Option Toml} (done : value.get key = .ok found) :
    found = Toml.find value.entries key := by
  cases value with
  | table entries => exact (Except.ok.inj done).symm
  | str _ | arr _ | int _ | float _ | bool _ | moment _ => cases done

theorem rootValue_eq {found : Option Toml} (done : rootValue doc key = .ok found) :
    found = [Spot.root, .channel, .admin].findSome? (doc.at_ key) := by
  simp only [List.findSome?_cons, List.findSome?_nil, Sections.at_]
  unfold rootValue at done
  cases root : Toml.find doc.data key with
  | some value =>
      rw [root] at done
      exact (Except.ok.inj done).symm
  | none =>
      rw [root] at done
      obtain ⟨inChannel, channel, done⟩ := bind_eq_ok done
      rw [← itemIfThere_eq channel]
      cases inChannel with
      | some value => exact (Except.ok.inj done).symm
      | none =>
          rw [← itemIfThere_eq done]
          cases found <;> rfl

/-- Where a setting is looked for, in order. -/
def Source.spots : Source → List Spot
  | .root => [.root]
  | .rootValue => [.root, .channel, .admin]
  | .orBotsChannel => [.root, .channel, .admin, .botsChannel]

theorem fetch_eq {source : Source} {found : Option Toml}
    (done : source.fetch doc key = .ok found) : found = source.spots.findSome? (doc.at_ key) := by
  cases source with
  | root =>
      rw [← Except.ok.inj done, Source.spots, List.findSome?_cons, Sections.at_]
      cases Toml.find doc.data key <;> rfl
  | rootValue => exact rootValue_eq done
  | orBotsChannel =>
      obtain ⟨first, root, done⟩ := bind_eq_ok done
      have before : Source.orBotsChannel.spots = [Spot.root, .channel, .admin] ++ [.botsChannel] :=
        rfl
      rw [before, List.findSome?_append, ← rootValue_eq root]
      cases first with
      | some value => exact (Except.ok.inj done).symm
      | none =>
          rw [get_eq done, Option.none_or, List.findSome?_cons, Sections.at_]
          cases Toml.find doc.botsChannel.entries key <;> rfl

/-- A key that stands in one place is found there or not at all. -/
theorem fetch_of_alone {source : Source} {found : Option Toml} {spot : Spot} {value : Toml}
    (done : source.fetch doc key = .ok found) (there : doc.at_ key spot = some value)
    (alone : ∀ other ∈ source.spots, other ≠ spot → doc.at_ key other = none) :
    found = if spot ∈ source.spots then some value else none := by
  rw [fetch_eq done]
  split
  · next looked =>
      obtain ⟨before, after, split, first⟩ := List.eq_append_cons_of_mem looked
      have nothing : before.findSome? (doc.at_ key) = none := by
        refine List.findSome?_eq_none_iff.mpr fun other early => alone other ?_ ?_
        · rw [split]
          exact List.mem_append_left _ early
        · rintro rfl
          exact first early
      rw [split, List.findSome?_append, nothing, Option.none_or, List.findSome?_cons, there]
  · next unlooked =>
      refine List.findSome?_eq_none_iff.mpr fun other listed => alone other listed ?_
      rintro rfl
      exact unlooked listed

/-! ## What is stored -/

/-- A value of a field. -/
inductive Value
  | text (s : Str)
  | number (n : Int)
  | real (x : Double)
  | flag (b : Bool)
  | texts (items : List Str)
  | bytes (key : List UInt8)
  deriving DecidableEq

/-- A type of a field. -/
inductive Kind
  | text
  | number
  | real
  | flag
  | texts
  | bytes
  deriving DecidableEq

/-- A value of the document is of a type, and which value of that type it is. -/
inductive Typed (py : Python) : Kind → Toml → Value → Prop
  | text (s : Str) : Typed py .text (.str s) (.text s)
  | number (n : Int) : Typed py .number (.int n) (.number n)
  | real (x : Double) : Typed py .real (.float x) (.real x)
  | whole {n : Int} {x : Double} : py.converted n = .ok x → Typed py .real (.int n) (.real x)
  | flag (b : Bool) : Typed py .flag (.bool b) (.flag b)
  | texts (items : List Str) : Typed py .texts (.arr (items.map .str)) (.texts items)
  /-- No value of the document is bytes. Whichever a string stands for. -/
  | bytes (s : Str) (key : List UInt8) : Typed py .bytes (.str s) (.bytes key)

namespace Slot

/-- What a place holds. -/
def held (config : γ) : Slot γ → Option Value
  | .text place => some (.text (place.get config))
  | .level place => (place.get config).map .text
  | .number place => some (.number (place.get config))
  | .real place => some (.real (place.get config))
  | .flag place => some (.flag (place.get config))

def kind : Slot γ → Kind
  | .text _ | .level _ => .text
  | .number _ => .number
  | .real _ => .real
  | .flag _ => .flag

/-- A value of the right type is stored as it is. -/
theorem store_typed {slot : Slot γ} {value : Toml} {x : Value} (typed : Typed py slot.kind value x)
    {c c' : γ} (done : slot.store py value c = .ok c') : slot.held c' = some x := by
  cases slot with
  | text place =>
      cases typed
      obtain rfl := Except.ok.inj done
      exact congrArg (some ∘ Value.text) (place.get_put _ c)
  | level place =>
      cases typed
      obtain rfl := Except.ok.inj done
      exact congrArg (Option.map Value.text) (place.get_put _ c)
  | number place =>
      cases typed
      obtain rfl := Except.ok.inj done
      exact congrArg (some ∘ Value.number) (place.get_put _ c)
  | real place =>
      obtain ⟨y, converted, stored⟩ := bind_eq_ok done
      obtain rfl := Except.ok.inj stored
      have held : (Slot.real place).held (place.put y c) = some (.real y) :=
        congrArg (some ∘ Value.real) (place.get_put y c)
      rw [held]
      cases typed with
      | real => rw [Except.ok.inj converted]
      | whole whole => rw [Except.ok.inj (converted.symm.trans whole)]
  | flag place =>
      cases typed
      obtain rfl := Except.ok.inj done
      exact congrArg (some ∘ Value.flag) (place.get_put _ c)

/-- What is read is the same whatever is put there. -/
def Spares (read : γ → β) : Slot γ → Prop
  | .text place => ∀ v c, read (place.put v c) = read c
  | .level place => ∀ v c, read (place.put v c) = read c
  | .number place => ∀ v c, read (place.put v c) = read c
  | .real place => ∀ v c, read (place.put v c) = read c
  | .flag place => ∀ v c, read (place.put v c) = read c

theorem Spares.keeps {slot : Slot γ} {read : γ → β} (spares : slot.Spares read) (value : Toml) :
    Keeps (fun c => slot.store py value c) read := by
  intro c c' done
  cases slot with
  | text place | level place | flag place => exact Except.ok.inj done ▸ spares _ c
  | number place | real place =>
      obtain ⟨x, _, stored⟩ := bind_eq_ok done
      exact Except.ok.inj stored ▸ spares x c

/-- Two places do not overlap. -/
def Apart (s t : Slot γ) : Prop := s.Spares t.held ∧ t.Spares s.held

end Slot

theorem keeps_apply {s : Setting γ} {read : γ → β} (spares : s.slot.Spares read)
    (found : Option Toml) : Keeps (fun c => s.apply py found c) read := by
  intro c c' done
  cases found with
  | none => exact congrArg read (Except.ok.inj done).symm
  | some value =>
      by_cases passes : s.presence.passes value
      · exact spares.keeps value ((if_pos passes).symm.trans done)
      · exact congrArg read (Except.ok.inj ((if_neg passes).symm.trans done)).symm

/-- What a setting holds when a value of its type was found, or nothing. -/
theorem held_apply {s : Setting γ} {found : Option Toml} {c c' : γ}
    (done : s.apply py found c = .ok c') {value : Toml} {x : Value}
    (typed : Typed py s.slot.kind value x) (is : ∀ v ∈ found, v = value) :
    s.slot.held c' = if found.isSome ∧ s.presence.passes value then some x else s.slot.held c := by
  cases found with
  | none => exact congrArg s.slot.held (Except.ok.inj done).symm
  | some v =>
      obtain rfl := is v rfl
      by_cases passes : s.presence.passes v
      · rw [if_pos ⟨rfl, passes⟩]
        exact Slot.store_typed typed ((if_pos passes).symm.trans done)
      · rw [if_neg fun both => passes both.2]
        exact congrArg s.slot.held (Except.ok.inj ((if_neg passes).symm.trans done)).symm

/-! ## No setting touches another -/

theorem apart_rootSettings : (rootSettings.map fun s => s.slot).Pairwise Slot.Apart := by
  simp only [rootSettings, List.map_cons, List.map_nil, List.pairwise_cons, List.forall_mem_cons]
  repeat' apply And.intro
  all_goals first
    | exact List.Pairwise.nil
    | exact List.forall_mem_nil _
    | exact fun _ _ => rfl

theorem apart_uiSettings : (uiSettings.map Setting.slot).Pairwise Slot.Apart := by
  simp only [uiSettings, List.map_cons, List.map_nil, List.pairwise_cons, List.forall_mem_cons]
  repeat' apply And.intro
  all_goals first
    | exact List.Pairwise.nil
    | exact List.forall_mem_nil _
    | exact fun _ _ => rfl

/-- The settings of the root leave the sections alone. -/
theorem rootSettings_spare : ∀ s ∈ rootSettings,
    s.slot.Spares fun c => (c.channel, c.botsChannel, c.admin, c.adminUi) := by
  simp only [rootSettings, List.forall_mem_cons]
  repeat' apply And.intro
  all_goals first
    | exact List.forall_mem_nil _
    | exact fun _ _ => rfl

/-- The sections leave the settings of the root alone. -/
theorem held_sections : ∀ s ∈ rootSettings, ∀ (c : BotConfig) channel botsChannel admin adminUi,
    s.slot.held { c with
      channel := channel, botsChannel := botsChannel, admin := admin, adminUi := adminUi } =
      s.slot.held c := by
  simp only [rootSettings, List.forall_mem_cons]
  repeat' apply And.intro
  all_goals first
    | exact List.forall_mem_nil _
    | exact fun _ _ _ _ _ => rfl

/-- The variable that overrides a setting of the root. -/
def rootVariable (key : Str) : Option Str :=
  if key = "game_url".toList then some "GAME_URL".toList else none

/-- The variable that overrides a setting of the administration. -/
def uiVariable (key : Str) : Option Str :=
  if key = "enabled".toList then some "ADMIN_UI_ENABLED".toList
  else if key = "bind".toList then some "ADMIN_UI_BIND".toList
  else if key = "port".toList then some "ADMIN_UI_PORT".toList
  else if key = "db_path".toList then some "ADMIN_UI_DB".toList
  else none

theorem overrides_spare_root : ∀ s ∈ rootSettings, ∀ o ∈ overrides,
    rootVariable s.key ≠ some o.variable_ → o.slot.Spares s.slot.held := by
  simp only [rootSettings, overrides, List.forall_mem_cons]
  repeat' apply And.intro
  all_goals first
    | exact List.forall_mem_nil _
    | exact fun _ _ _ => rfl
    | exact fun own => absurd rfl own

theorem overrides_spare_ui : ∀ s ∈ uiSettings, ∀ o ∈ overrides,
    uiVariable s.key ≠ some o.variable_ → o.slot.Spares fun c => s.slot.held c.adminUi := by
  simp only [uiSettings, overrides, List.forall_mem_cons]
  repeat' apply And.intro
  all_goals first
    | exact List.forall_mem_nil _
    | exact fun _ _ _ => rfl
    | exact fun own => absurd rfl own

theorem overrides_spare_sections : ∀ o ∈ overrides,
    o.slot.Spares fun c => (c.channel, c.botsChannel, c.admin) := by
  simp only [overrides, List.forall_mem_cons]
  repeat' apply And.intro
  all_goals first
    | exact List.forall_mem_nil _
    | exact fun _ _ => rfl

end Zorkbot.Config
