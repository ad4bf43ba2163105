/-
# What the configuration holds

A key may stand in places that are warned about but never looked at, and what is found is taken
over by one of two tests. The configuration holds the value exactly when the key is looked for
where it stands and the value passes the test, unless the value is the default anyway.
-/

import Zorkbot.Config.Fields
import Mathlib.Data.List.ReduceOption

namespace Zorkbot.Config

open Settings (Keeps bind_eq_ok)
open Zorkbot.Bot (Str)

variable {γ β : Type} {py : Python} {env : Str → Option Str} {doc : Sections} {key : Str}
  {data : List (Str × Toml)}

/-! ## The parts of loading -/

/-- What is done with the document, part by part. -/
inductive Stages (py : Python) (env : Str → Option Str) (doc : Sections) (config : BotConfig) : Prop
  | mk (root channel bots admin ui : BotConfig)
      (settings : rootSettings.foldlM
        (fun config s => do s.apply py (← s.source.fetch doc s.key) config) {} = .ok root)
      (channels : applyChannel py doc root = .ok channel)
      (botsChannels : applyBotsChannel py doc channel = .ok bots)
      (admins : applyAdmin py doc bots = .ok admin)
      (uis : applyAdminUi py doc admin = .ok ui)
      (overridden : overrides.foldlM (Override.apply py env) ui = .ok config)

theorem stages {warnings : List Str} {config : BotConfig}
    (loaded : loadConfig py env (some data) = .ok (warnings, config)) :
    Stages py env (Sections.of data) config := by
  obtain ⟨⟨_, ui⟩, applied, loaded⟩ := bind_eq_ok loaded
  obtain ⟨_, overridden, last⟩ := bind_eq_ok loaded
  obtain ⟨_, rfl⟩ := Prod.mk.inj (Except.ok.inj last)
  obtain ⟨_, _, applied⟩ := bind_eq_ok applied
  obtain ⟨_, _, applied⟩ := bind_eq_ok applied
  obtain ⟨_, _, applied⟩ := bind_eq_ok applied
  obtain ⟨_, _, applied⟩ := bind_eq_ok applied
  obtain ⟨root, settings, applied⟩ := bind_eq_ok applied
  obtain ⟨channel, channels, applied⟩ := bind_eq_ok applied
  obtain ⟨bots, botsChannels, applied⟩ := bind_eq_ok applied
  obtain ⟨admin, admins, applied⟩ := bind_eq_ok applied
  obtain ⟨ui', uis, applied⟩ := bind_eq_ok applied
  obtain ⟨_, rfl⟩ := Prod.mk.inj (Except.ok.inj applied)
  exact .mk root channel bots admin ui' settings channels botsChannels admins uis overridden

/-- What is read of the section of a channel. -/
structure ChannelRead (section_ : Toml) (found : Option ChannelConfig) : Prop where
  index : ∀ n, Toml.find section_.entries "index".toList = some (.int n) →
    found.map ChannelConfig.index = some n
  name : ∀ s, Toml.find section_.entries "name".toList = some (.str s) →
    found.map ChannelConfig.name = some s
  secret : ∀ channel ∈ found, channel.secret = none

theorem truthy_of_find {value found : Toml} (there : Toml.find value.entries key = some found) :
    value.truthy = true := by
  cases value with
  | table entries =>
      cases entries with
      | nil => cases there
      | cons => rfl
  | str _ | arr _ | int _ | float _ | bool _ | moment _ => cases there

theorem channelRead {section_ : Toml} {index : Int} {name : Str} {found : Option ChannelConfig}
    (done : channelOf py section_ index name = .ok found) : ChannelRead section_ found := by
  unfold channelOf at done
  by_cases truthy : section_.truthy
  · rw [if_pos truthy] at done
    obtain ⟨atIndex, indexed, done⟩ := bind_eq_ok done
    obtain ⟨i, converted, done⟩ := bind_eq_ok done
    obtain ⟨atName, named, done⟩ := bind_eq_ok done
    obtain rfl := Except.ok.inj done
    refine ⟨fun n there => ?_, fun s there => ?_, ?_⟩
    · rw [← get_eq indexed] at there
      rw [there] at converted
      exact congrArg some (Except.ok.inj converted).symm
    · rw [← get_eq named] at there
      rw [there]
      rfl
    · rintro _ ⟨⟩
      rfl
  · rw [if_neg truthy] at done
    obtain rfl := Except.ok.inj done
    exact ⟨fun n there => absurd (truthy_of_find there) truthy,
      fun s there => absurd (truthy_of_find there) truthy, nofun⟩

theorem applyChannel_eq {c c' : BotConfig} (done : applyChannel py doc c = .ok c') :
    ∃ found, ChannelRead doc.channel found ∧ c' = { c with channel := found.getD c.channel } := by
  obtain ⟨found, read, done⟩ := bind_eq_ok done
  refine ⟨found, channelRead read, ?_⟩
  cases found <;> exact (Except.ok.inj done).symm

theorem applyBotsChannel_eq {c c' : BotConfig} (done : applyBotsChannel py doc c = .ok c') :
    ∃ found, ChannelRead doc.botsChannel found ∧
      c' = { c with botsChannel := found.or c.botsChannel } := by
  obtain ⟨found, read, done⟩ := bind_eq_ok done
  refine ⟨found, channelRead read, ?_⟩
  cases found <;> exact (Except.ok.inj done).symm

theorem applyAdmin_eq {c c' : BotConfig} (done : applyAdmin py doc c = .ok c') :
    ∃ admin : AdminConfig, c' = { c with admin := admin } ∧
      ∀ items : List Str, doc.at_ "pubkeys".toList .admin = some (.arr (items.map .str)) →
        admin.pubkeys = if items = [] then c.admin.pubkeys else items := by
  obtain ⟨found, read, done⟩ := bind_eq_ok done
  rw [Sections.at_, ← get_eq read]
  cases found with
  | none =>
      refine ⟨c.admin, (Except.ok.inj done).symm, ?_⟩
      rintro items ⟨⟩
  | some pubkeys =>
      by_cases truthy : pubkeys.truthy
      · obtain ⟨elements, listed, done⟩ := bind_eq_ok ((if_pos truthy).symm.trans done)
        refine ⟨_, (Except.ok.inj done).symm, ?_⟩
        rintro items ⟨⟩
        obtain rfl := Except.ok.inj listed
        have some_ : items ≠ [] := by
          rintro rfl
          cases truthy
        rw [if_neg some_, List.map_map]
        exact List.map_id _
      · refine ⟨c.admin, (Except.ok.inj ((if_neg truthy).symm.trans done)).symm, ?_⟩
        rintro items ⟨⟩
        have none_ : items = [] := by
          cases items with
          | nil => rfl
          | cons => exact absurd rfl truthy
        rw [if_pos none_]

theorem applyAdminUi_eq {c c' : BotConfig} (done : applyAdminUi py doc c = .ok c') :
    ∃ ui, c' = { c with adminUi := ui } ∧
      (doc.adminUi.truthy = true → uiSettings.foldlM
        (fun ui s => do s.apply py (← itemIfThere s.key doc.adminUi) ui) c.adminUi = .ok ui) := by
  by_cases truthy : doc.adminUi.truthy
  · obtain ⟨ui, settings, done⟩ := bind_eq_ok ((if_pos truthy).symm.trans done)
    exact ⟨ui, (Except.ok.inj done).symm, fun _ => settings⟩
  · exact ⟨c.adminUi, (Except.ok.inj ((if_neg truthy).symm.trans done)).symm,
      fun wrong => absurd wrong truthy⟩

/-- What no override that is set has to do with is left by all of them. -/
theorem keeps_overrides (read : BotConfig → β)
    (spares : ∀ o ∈ overrides, Bot.truthy (env o.variable_) = none ∨ o.slot.Spares read) :
    Keeps (fun c => overrides.foldlM (Override.apply py env) c) read := by
  refine Settings.keeps_foldlM fun o listed c c' done => ?_
  unfold Override.apply at done
  cases set : Bot.truthy (env o.variable_) with
  | none =>
      rw [set] at done
      exact congrArg read (Except.ok.inj done).symm
  | some text =>
      rw [set] at done
      exact ((spares o listed).resolve_left (by simp [set])).keeps _ done

/-- A run of settings, each with what was found for it. -/
theorem held_foldlM {σ : Type} {steps : List σ} (setting : σ → Setting γ)
    {fetch : σ → Except PyError (Option Toml)} {s : σ} {c c' : γ}
    (apart : (steps.map fun s => (setting s).slot).Pairwise Slot.Apart) (listed : s ∈ steps)
    (done : steps.foldlM (fun c s => do (setting s).apply py (← fetch s) c) c = .ok c') :
    ∃ found d d', fetch s = .ok found ∧ (setting s).apply py found d = .ok d' ∧
      (setting s).slot.held d = (setting s).slot.held c ∧
      (setting s).slot.held c' = (setting s).slot.held d' := by
  have steps_apart : steps.Pairwise
      (Settings.Apart (fun c s => do (setting s).apply py (← fetch s) c) fun s c =>
        (setting s).slot.held c) :=
    (List.pairwise_map.mp apart).imp fun {_ _} apart =>
      ⟨Keeps.bind (keeps_apply apart.1), Keeps.bind (keeps_apply apart.2)⟩
  obtain ⟨d, d', step, before, after⟩ := Settings.foldlM_reads steps_apart listed done
  obtain ⟨found, fetched, applied⟩ := bind_eq_ok step
  exact ⟨found, d, d', fetched, applied, before, after⟩

theorem rootSettings_keep {c c' : BotConfig} (done : rootSettings.foldlM
    (fun config s => do s.apply py (← s.source.fetch doc s.key) config) c = .ok c') :
    (c'.channel, c'.botsChannel, c'.admin, c'.adminUi) =
      (c.channel, c.botsChannel, c.admin, c.adminUi) := by
  have keeps : Keeps (fun c => rootSettings.foldlM
      (fun config s => do s.apply py (← s.source.fetch doc s.key) config) c)
      fun c : BotConfig => (c.channel, c.botsChannel, c.admin, c.adminUi) :=
    Settings.keeps_foldlM fun s listed => Keeps.bind (keeps_apply (rootSettings_spare s listed))
  exact keeps done

variable {config : BotConfig}

/-- A setting of the root was looked for, and what was found is what it holds. -/
theorem Stages.held_root (staged : Stages py env doc config) {s : RootSetting}
    (listed : s ∈ rootSettings)
    (free : ∀ name ∈ rootVariable s.key, Bot.truthy (env name) = none) :
    ∃ found d d', s.source.fetch doc s.key = .ok found ∧ s.apply py found d = .ok d' ∧
      s.slot.held d = s.slot.held ({} : BotConfig) ∧ s.slot.held config = s.slot.held d' := by
  obtain ⟨root, channel, bots, admin, ui, settings, channels, botsChannels, admins, uis,
    overridden⟩ := staged
  obtain ⟨found, d, d', fetched, applied, before, after⟩ :=
    held_foldlM RootSetting.toSetting apart_rootSettings listed settings
  refine ⟨found, d, d', fetched, applied, before, Eq.trans ?_ after⟩
  obtain ⟨_, _, rfl⟩ := applyChannel_eq channels
  obtain ⟨_, _, rfl⟩ := applyBotsChannel_eq botsChannels
  obtain ⟨_, rfl, _⟩ := applyAdmin_eq admins
  obtain ⟨_, rfl, _⟩ := applyAdminUi_eq uis
  have kept := keeps_overrides (fun c => s.slot.held c) (fun o there => by
    by_cases own : rootVariable s.key = some o.variable_
    · exact .inl (free _ own)
    · exact .inr (overrides_spare_root s listed o there own)) overridden
  exact kept.trans (held_sections s listed root _ _ _ _)

/-- The channels are those that were read. -/
theorem Stages.channels (staged : Stages py env doc config) :
    ∃ found foundBots, ChannelRead doc.channel found ∧ ChannelRead doc.botsChannel foundBots ∧
      config.channel = found.getD { index := 1 } ∧ config.botsChannel = foundBots := by
  obtain ⟨root, channel, bots, admin, ui, settings, channels, botsChannels, admins, uis,
    overridden⟩ := staged
  have sections := rootSettings_keep settings
  obtain ⟨found, read, rfl⟩ := applyChannel_eq channels
  obtain ⟨foundBots, readBots, rfl⟩ := applyBotsChannel_eq botsChannels
  obtain ⟨_, rfl, _⟩ := applyAdmin_eq admins
  obtain ⟨_, rfl, _⟩ := applyAdminUi_eq uis
  have kept := keeps_overrides (fun c => (c.channel, c.botsChannel, c.admin))
    (fun o there => .inr (overrides_spare_sections o there)) overridden
  refine ⟨found, foundBots, read, readBots, ?_, ?_⟩
  · rw [(Prod.mk.inj kept).1, (Prod.mk.inj sections).1]
  · rw [(Prod.mk.inj (Prod.mk.inj kept).2).1, (Prod.mk.inj (Prod.mk.inj sections).2).1]
    exact Option.or_none

/-- The administrators are those that were read. -/
theorem Stages.pubkeys (staged : Stages py env doc config) {items : List Str}
    (there : doc.at_ "pubkeys".toList .admin = some (.arr (items.map .str))) :
    config.admin.pubkeys = items := by
  obtain ⟨root, channel, bots, admin, ui, settings, channels, botsChannels, admins, uis,
    overridden⟩ := staged
  have sections := rootSettings_keep settings
  obtain ⟨_, _, rfl⟩ := applyChannel_eq channels
  obtain ⟨_, _, rfl⟩ := applyBotsChannel_eq botsChannels
  obtain ⟨_, rfl, read⟩ := applyAdmin_eq admins
  obtain ⟨_, rfl, _⟩ := applyAdminUi_eq uis
  have kept := keeps_overrides (fun c => (c.channel, c.botsChannel, c.admin))
    (fun o there => .inr (overrides_spare_sections o there)) overridden
  rw [(Prod.mk.inj (Prod.mk.inj kept).2).2]
  refine (read items there).trans ?_
  split
  · next none_ =>
      rw [none_]
      exact congrArg AdminConfig.pubkeys (Prod.mk.inj (Prod.mk.inj (Prod.mk.inj sections).2).2).1
  · rfl

theorem uiSettings_there : ∀ s ∈ uiSettings, s.presence = .there := by decide

/-- A setting of the administration holds what was found. -/
theorem Stages.held_ui (staged : Stages py env doc config) {s : Setting AdminUIConfig}
    (listed : s ∈ uiSettings) (free : ∀ name ∈ uiVariable s.key, Bot.truthy (env name) = none)
    {value : Toml} (there : doc.at_ s.key .adminUi = some value) {x : Value}
    (typed : Typed py s.slot.kind value x) : s.slot.held config.adminUi = some x := by
  obtain ⟨root, channel, bots, admin, ui, settings, channels, botsChannels, admins, uis,
    overridden⟩ := staged
  obtain ⟨ui', rfl, settings⟩ := applyAdminUi_eq uis
  obtain ⟨found, d, d', fetched, applied, _, after⟩ :=
    held_foldlM id apart_uiSettings listed (settings (truthy_of_find there))
  obtain rfl := (itemIfThere_eq fetched).trans there
  have held := held_apply applied typed fun v is => (Option.some.inj is).symm
  have passes : s.presence.passes value = true := by
    rw [uiSettings_there s listed]
    rfl
  have kept := keeps_overrides (fun c => s.slot.held c.adminUi) (fun o there => by
    by_cases own : uiVariable s.key = some o.variable_
    · exact .inl (free _ own)
    · exact .inr (overrides_spare_ui s listed o there own)) overridden
  exact kept.trans (after.trans (held.trans (if_pos ⟨rfl, passes⟩)))

/-! ## The recognised keys -/

/-- A key that is recognised where it stands. -/
structure Entry where
  spot : Spot
  key : Str
  kind : Kind
  /-- Where the configuration has its value. -/
  held (config : BotConfig) : Option Value
  /-- Where else the key would be the same setting. -/
  elsewhere : List Spot
  /-- The environment variable that overrides it. -/
  variable_ : Option Str
  /-- Whether it is looked for where it stands and the value passes the test. -/
  honoured (value : Toml) : Bool

def sectionSpots : List Spot := [.admin, .adminUi, .channel, .botsChannel]

/-- A setting of the root, where it belongs or under a section. -/
def RootSetting.entry (s : RootSetting) (spot : Spot) : Entry where
  spot := spot
  key := s.key
  kind := s.slot.kind
  held config := s.slot.held config
  elsewhere := if s.source = .root then [] else (.root :: sectionSpots).filter (· ≠ spot)
  variable_ := rootVariable s.key
  honoured value := spot ∈ s.source.spots && s.presence.passes value

/-- The settings that are applied although they stand under a section. -/
def optionalSettings : List RootSetting := rootSettings.filter fun s => s.source ≠ .root

/-- The keys of the section of a channel. -/
def channelEntries (spot : Spot) (channel : BotConfig → Option ChannelConfig) : List Entry :=
  [{ spot := spot
     key := "index".toList
     kind := .number
     held config := (channel config).map fun c => .number c.index
     elsewhere := []
     variable_ := none
     honoured _ := true },
    { spot := spot
      key := "name".toList
      kind := .text
      held config := (channel config).map fun c => .text c.name
      elsewhere := []
      variable_ := none
      honoured _ := true },
    { spot := spot
      key := "secret".toList
      kind := .bytes
      held config := ((channel config).bind ChannelConfig.secret).map .bytes
      elsewhere := []
      variable_ := none
      honoured _ := false }]

/-- A setting of the administration. -/
def uiEntry (s : Setting AdminUIConfig) : Entry where
  spot := .adminUi
  key := s.key
  kind := s.slot.kind
  held config := s.slot.held config.adminUi
  elsewhere := []
  variable_ := uiVariable s.key
  honoured _ := true

def pubkeysEntry : Entry where
  spot := .admin
  key := "pubkeys".toList
  kind := .texts
  held config := some (.texts config.admin.pubkeys)
  elsewhere := []
  variable_ := none
  honoured _ := true

def entries : List Entry :=
  (rootSettings.map fun s => s.entry .root) ++
    (optionalSettings.flatMap fun s => sectionSpots.map s.entry) ++
    channelEntries .channel (fun config => some config.channel) ++
    channelEntries .botsChannel BotConfig.botsChannel ++ uiSettings.map uiEntry ++ [pubkeysEntry]

/-- The keys that are warned about are those of the settings that are applied anyway. -/
theorem optionalSettings_perm :
    (optionalSettings.map fun s => s.key).Perm rootOptionalKeys := by decide

/-- What an entry says of the configuration. -/
def Entry.Holds (e : Entry) (config : BotConfig) (value : Toml) (x : Value) : Prop :=
  e.held config = some x ↔ e.honoured value = true ∨ e.held {} = some x

theorem Stages.root_holds (staged : Stages py env doc config) {s : RootSetting}
    (listed : s ∈ rootSettings) {spot : Spot} (right : s.source = .root → spot = .root)
    (free : ∀ name ∈ rootVariable s.key, Bot.truthy (env name) = none) {value : Toml}
    (there : doc.at_ s.key spot = some value) {x : Value} (typed : Typed py s.slot.kind value x)
    (alone : ∀ other ∈ (s.entry spot).elsewhere, doc.at_ s.key other = none) :
    (s.entry spot).Holds config value x := by
  obtain ⟨found, d, d', fetched, applied, before, after⟩ := staged.held_root listed free
  have lone : ∀ other ∈ s.source.spots, other ≠ spot → doc.at_ s.key other = none := by
    intro other looked differs
    refine alone other ?_
    by_cases root : s.source = .root
    · rw [root, Source.spots, List.mem_singleton] at looked
      exact absurd (looked.trans (right root).symm) differs
    · have every : other ∈ Spot.root :: sectionSpots := by cases other <;> decide
      have elsewhere : (s.entry spot).elsewhere = _ := if_neg root
      rw [elsewhere]
      exact List.mem_filter.mpr ⟨every, decide_eq_true differs⟩
  have is := fetch_of_alone fetched there lone
  have held := held_apply applied typed fun v here => by
    rw [is] at here
    split at here
    · exact (Option.some.inj here).symm
    · cases here
  have holds : s.slot.held config = if spot ∈ s.source.spots ∧ s.presence.passes value = true
      then some x else s.slot.held ({} : BotConfig) := by
    rw [after, held, before, is]
    refine if_congr (and_congr_left' ?_) rfl rfl
    split
    · next looked => exact iff_of_true rfl looked
    · next unlooked => exact iff_of_false Bool.false_ne_true unlooked
  rw [Entry.Holds]
  change s.slot.held config = some x ↔
    (decide (spot ∈ s.source.spots) && s.presence.passes value) = true ∨
      s.slot.held ({} : BotConfig) = some x
  rw [holds, Bool.and_eq_true, decide_eq_true_eq]
  split
  · next both => exact ⟨fun _ => .inl both, fun _ => rfl⟩
  · next missed => exact ⟨.inr, fun is => is.resolve_left missed⟩

/-- The keys of a channel, where it has been read. -/
theorem ChannelRead.holds {section_ : Toml} {found : Option ChannelConfig}
    (read : ChannelRead section_ found) {spot : Spot}
    {channel : BotConfig → Option ChannelConfig} (is : ∀ c ∈ found, channel config = some c)
    (default_ : (channel {}).bind ChannelConfig.secret = none)
    (secret : (channel config).bind ChannelConfig.secret = none) {e : Entry}
    (listed : e ∈ channelEntries spot channel) {value : Toml}
    (there : Toml.find section_.entries e.key = some value) {x : Value}
    (typed : Typed py e.kind value x) : e.Holds config value x := by
  simp only [channelEntries, List.mem_cons, List.not_mem_nil, or_false] at listed
  rcases listed with rfl | rfl | rfl
  · cases typed with
    | number n =>
        obtain ⟨c, here, index⟩ := Option.map_eq_some_iff.mp (read.index n there)
        simp [Entry.Holds, is c here, index]
  · cases typed with
    | text s =>
        obtain ⟨c, here, name⟩ := Option.map_eq_some_iff.mp (read.name s there)
        simp [Entry.Holds, is c here, name]
  · refine iff_of_false (fun holds => ?_) (not_or.mpr ⟨Bool.false_ne_true, fun holds => ?_⟩)
    · dsimp only at holds
      rw [secret] at holds
      cases holds
    · dsimp only at holds
      rw [default_] at holds
      cases holds

/-- Each recognised key that stands in one place of the document has its value in the
configuration exactly when it is looked for there and the value passes the test, or when the
value is the default. -/
theorem config_honoured_iff {warnings : List Str}
    (loaded : loadConfig py env (some data) = .ok (warnings, config)) {e : Entry}
    (recognised : e ∈ entries) {value : Toml}
    (there : (Sections.of data).at_ e.key e.spot = some value) {x : Value}
    (typed : Typed py e.kind value x)
    (alone : ∀ other ∈ e.elsewhere, (Sections.of data).at_ e.key other = none)
    (free : ∀ name ∈ e.variable_, Bot.truthy (env name) = none) :
    e.held config = some x ↔ e.honoured value = true ∨ e.held {} = some x := by
  have staged := stages loaded
  obtain ⟨found, foundBots, read, readBots, channel, botsChannel⟩ := staged.channels
  simp only [entries, List.mem_append, List.mem_map, List.mem_flatMap, List.mem_singleton]
    at recognised
  rcases recognised with ((((⟨s, listed, rfl⟩ | ⟨s, optional, spot, _, rfl⟩) | listed) | listed) |
    ⟨s, listed, rfl⟩) | rfl
  · exact staged.root_holds listed (fun _ => rfl) free there typed alone
  · obtain ⟨listed, source⟩ := List.mem_filter.mp optional
    exact staged.root_holds listed (fun root => absurd root (of_decide_eq_true source)) free there
      typed alone
  · have at_ : e.spot = .channel := by
      simp only [channelEntries, List.mem_cons, List.not_mem_nil, or_false] at listed
      rcases listed with rfl | rfl | rfl <;> rfl
    rw [at_] at there
    refine read.holds (fun c here => ?_) rfl ?_ listed there typed
    · rw [channel, Option.mem_def.mp here]
      rfl
    · rw [channel]
      cases found with
      | none => rfl
      | some c => exact read.secret c rfl
  · have at_ : e.spot = .botsChannel := by
      simp only [channelEntries, List.mem_cons, List.not_mem_nil, or_false] at listed
      rcases listed with rfl | rfl | rfl <;> rfl
    rw [at_] at there
    refine readBots.holds (fun c here => botsChannel.trans here) rfl ?_ listed there typed
    rw [botsChannel]
    cases foundBots with
    | none => rfl
    | some c => exact readBots.secret c rfl
  · exact iff_of_true (staged.held_ui listed free there typed) (.inl rfl)
  · cases typed with
    | texts items =>
        exact iff_of_true (congrArg (some ∘ Value.texts) (staged.pubkeys there)) (.inl rfl)

/-! ## What is warned about -/

/-- The name of a section, its keys and what it holds. -/
def Sections.warned (doc : Sections) : Spot → Option (String × List Str × Toml)
  | .root => none
  | .admin => some ("admin", adminKeys, doc.admin)
  | .adminUi => some ("admin_ui", adminUiKeys, doc.adminUi)
  | .channel => some ("channel", channelKeys, doc.channel)
  | .botsChannel => some ("bots_channel", channelKeys, doc.botsChannel)

theorem misplaced_mem {section_ : String} {values : Toml} {allowed warnings : List Str}
    (done : warnMisplacedSectionKeys py section_ values allowed = .ok warnings)
    (there : (Toml.find values.entries key).isSome) (stray : key ∉ allowed)
    (optional : key ∈ rootOptionalKeys) : misplaced section_.toList key ∈ warnings := by
  obtain ⟨keys, sorted, done⟩ := bind_eq_ok done
  obtain ⟨made, warned, done⟩ := bind_eq_ok done
  obtain rfl := Except.ok.inj done
  have listed : Toml.str key ∈ keys := by
    cases values with
    | table entries =>
        obtain rfl := Except.ok.inj sorted
        obtain ⟨value, held⟩ := Option.isSome_iff_exists.mp there
        obtain ⟨entry, found, _⟩ := Option.map_eq_some_iff.mp held
        have same : entry.1 = key := by simpa using List.find?_some found
        refine List.mem_map_of_mem ((List.mem_insertionSort _).mpr ?_)
        exact same ▸ List.mem_map_of_mem (List.mem_of_find?_eq_some found)
    | str _ | arr _ | int _ | float _ | bool _ | moment _ => cases there
  obtain ⟨warning, here, is⟩ := Settings.mem_of_mapM warned listed
  rw [warningOf, if_neg stray, if_pos optional] at is
  rw [List.reduceOption_mem_iff, Except.ok.inj is]
  exact here

/-- A setting under a section is reported as misplaced, whether or not it is applied. -/
theorem misplaced_warned {warnings : List Str}
    (loaded : loadConfig py env (some data) = .ok (warnings, config)) {s : RootSetting}
    (optional : s ∈ optionalSettings) {spot : Spot} {name : String} {allowed : List Str}
    {values : Toml} (section_ : (Sections.of data).warned spot = some (name, allowed, values))
    (there : ((Sections.of data).at_ s.key spot).isSome) :
    misplaced name.toList s.key ∈ warnings := by
  have known : s.key ∈ rootOptionalKeys :=
    optionalSettings_perm.mem_iff.mp (List.mem_map_of_mem optional)
  obtain ⟨⟨_, ui⟩, applied, loaded⟩ := bind_eq_ok loaded
  obtain ⟨_, _, last⟩ := bind_eq_ok loaded
  obtain ⟨rfl, _⟩ := Prod.mk.inj (Except.ok.inj last)
  obtain ⟨admin, admins, applied⟩ := bind_eq_ok applied
  obtain ⟨adminUi, adminUis, applied⟩ := bind_eq_ok applied
  obtain ⟨channel, channels, applied⟩ := bind_eq_ok applied
  obtain ⟨botsChannel, botsChannels, applied⟩ := bind_eq_ok applied
  obtain ⟨_, _, applied⟩ := bind_eq_ok applied
  obtain ⟨_, _, applied⟩ := bind_eq_ok applied
  obtain ⟨_, _, applied⟩ := bind_eq_ok applied
  obtain ⟨_, _, applied⟩ := bind_eq_ok applied
  obtain ⟨_, _, applied⟩ := bind_eq_ok applied
  obtain ⟨rfl, _⟩ := Prod.mk.inj (Except.ok.inj applied)
  have stray : ∀ k ∈ rootOptionalKeys, k ∉ adminKeys ∧ k ∉ adminUiKeys ∧ k ∉ channelKeys := by
    decide
  obtain ⟨notAdmin, notUi, notChannel⟩ := stray s.key known
  simp only [List.mem_append]
  cases spot with
  | root => cases section_
  | admin =>
      cases section_
      exact .inl (.inl (.inl (misplaced_mem admins there notAdmin known)))
  | adminUi =>
      cases section_
      exact .inl (.inl (.inr (misplaced_mem adminUis there notUi known)))
  | channel =>
      cases section_
      exact .inl (.inr (misplaced_mem channels there notChannel known))
  | botsChannel =>
      cases section_
      exact .inr (misplaced_mem botsChannels there notChannel known)

/-! ## Three documents -/

/-- An interpreter, as far as it takes part below. -/
def interpreter : Python where
  shown _ := []
  truncated _ := .error .value
  converted _ := .error .overflow
  parsed _ := .error .value
  sorted := .ok
  lower := id

/-- `session_poll_seconds = 0`. -/
theorem config_honoured_iff_zero :
    ((rootSettings.get ⟨6, by decide⟩).entry .root).held { sessionPollSeconds := 0 } =
        some (.number 0) ↔
      ((rootSettings.get ⟨6, by decide⟩).entry .root).honoured (.int 0) = true ∨
        ((rootSettings.get ⟨6, by decide⟩).entry .root).held {} = some (.number 0) := by
  have loaded : loadConfig interpreter (fun _ => none)
      (some [("session_poll_seconds".toList, .int 0)]) = .ok ([], { sessionPollSeconds := 0 }) := by
    decide +kernel
  refine config_honoured_iff loaded ?_ rfl (.number 0) (fun other elsewhere => ?_) nofun
  · simp only [entries, List.mem_append]
    exact .inl (.inl (.inl (.inl (.inl (List.mem_map_of_mem (List.get_mem _ _))))))
  · cases other with
    | root => exact absurd elsewhere (by decide)
    | admin | adminUi | channel | botsChannel => rfl

/-- `max_watchers_per_session = 0` is not taken over, nor is `dm_ack_enabled = false` under
`[admin_ui]`, which is said to be applied, nor is a key under `[channel]`. -/
theorem settings_ignored :
    loadConfig interpreter (fun _ => none) (some [("max_watchers_per_session".toList, .int 0)]) =
        .ok ([], { maxWatchersPerSession := 2 }) ∧
      loadConfig interpreter (fun _ => none)
          (some [("admin_ui".toList, .table [("dm_ack_enabled".toList, .bool false)])]) =
        .ok ([misplaced "admin_ui".toList "dm_ack_enabled".toList], { dmAckEnabled := true }) ∧
      loadConfig interpreter (fun _ => none) (some [("channel".toList, .table
          [("secret".toList, .str "00112233445566778899aabbccddeeff".toList)])]) =
        .ok ([], { channel := { index := 1, secret := none } }) :=
  ⟨by decide +kernel, by decide +kernel, by decide +kernel⟩

end Zorkbot.Config
