/-
# The configuration

The settings are taken over one after another from where each is looked for. Some of them are
only taken over when they count as true, others whenever they are there. A section is warned about
when it has a key that belongs to the root.
-/

import Zorkbot.Config.Toml
import Zorkbot.Data.Settings

namespace Zorkbot.Config

open Settings (Place)
open Zorkbot.Bot (Str)

/-! ## The records -/

/-- `ZORK_CHANNEL_NAME`. -/
def zorkChannelName : Str := "#zork".toList

/-- `BOTS_CHANNEL_NAME`. -/
def botsChannelName : Str := "#bots".toList

structure ChannelConfig where
  index : Int
  name : Str := zorkChannelName
  secret : Option (List UInt8) := none
  deriving DecidableEq

structure AdminConfig where
  pubkeys : List Str := []
  deriving DecidableEq

structure AdminUIConfig where
  enabled : Bool := false
  bind : Str := "0.0.0.0".toList
  port : Int := 8081
  dbPath : Str := "/data/admin.db".toList
  accessTokenTtlSeconds : Int := 1800
  refreshTokenTtlSeconds : Int := 2592000
  eventRetentionDays : Int := 90
  eventQueueSize : Int := 1024
  liveBufferEvents : Int := 50
  maxLiveStreams : Int := 4
  logBufferLines : Int := 500
  maxLogStreams : Int := 2
  /-- 30.0. -/
  radioCacheSeconds : Double := ⟨0x403E000000000000⟩
  radioMessageWindow : Int := 20
  radioMessageContacts : Int := 50
  radioWriteEnabled : Bool := false
  /-- 2.0. -/
  radioWriteMinIntervalSeconds : Double := ⟨0x4000000000000000⟩
  deriving DecidableEq

structure BotConfig where
  name : Str := "zorkbot".toList
  channel : ChannelConfig := { index := 1 }
  gameUrl : Str := "http://game:8080".toList
  admin : AdminConfig := {}
  adminUi : AdminUIConfig := {}
  logLevel : Option Str := none
  packetMaxChars : Int := 120
  announceOnStart : Bool := false
  maxWatchersPerSession : Int := 2
  sessionPollSeconds : Int := 30
  advertEnabled : Bool := false
  advertFlood : Bool := true
  advertIntervalSeconds : Int := 300
  advertCooldownSeconds : Int := 300
  /-- 2.0. -/
  sendSpacingSeconds : Double := ⟨0x4000000000000000⟩
  maxSendQueueDepth : Int := 64
  /-- 2.0. -/
  channelRxGuardSeconds : Double := ⟨0x4000000000000000⟩
  dmAckEnabled : Bool := true
  dmAckMaxAttempts : Int := 3
  dmAckMaxFloodAttempts : Int := 2
  dmAckFloodAfter : Int := 2
  /-- 0.0. -/
  dmAckTimeoutSeconds : Double := ⟨0⟩
  dmAckAbandonResponse : Bool := true
  botsEnabled : Bool := false
  botsChannel : Option ChannelConfig := none
  /-- 12.0. -/
  botsCooldownSeconds : Double := ⟨0x4028000000000000⟩
  deriving DecidableEq

/-! ## One setting -/

/-- A place for a value of a type, with the conversion to it. -/
inductive Slot (γ : Type)
  | text (place : Place γ Str)
  /-- `str | None`. -/
  | level (place : Place γ (Option Str))
  | number (place : Place γ Int)
  | real (place : Place γ Double)
  | flag (place : Place γ Bool)

/-- Convert a value and store it. -/
def Slot.store {γ : Type} (py : Python) (value : Toml) (config : γ) : Slot γ → Except PyError γ
  | .text place => .ok (place.put (value.toStr py) config)
  | .level place => .ok (place.put (some (value.toStr py)) config)
  | .number place => do return place.put (← value.toInt py) config
  | .real place => do return place.put (← value.toFloat py) config
  | .flag place => .ok (place.put value.truthy config)

/-- When a value that was found is taken over. -/
inductive Presence
  /-- `if value := ..`. -/
  | truthy
  /-- `if value is not None`. -/
  | there
  deriving DecidableEq

def Presence.passes (value : Toml) : Presence → Bool
  | .truthy => value.truthy
  | .there => true

/-- A key and where its value goes. -/
structure Setting (γ : Type) where
  key : Str
  presence : Presence
  slot : Slot γ

/-- Take over what was found, if anything. -/
def Setting.apply {γ : Type} (py : Python) (found : Option Toml) (config : γ) (s : Setting γ) :
    Except PyError γ :=
  match found with
  | none => .ok config
  | some value => if s.presence.passes value then s.slot.store py value config else .ok config

/-! ## Sections -/

/-- The document and its sections, each `{}` when there is none. -/
structure Sections where
  data : List (Str × Toml)
  admin : Toml
  adminUi : Toml
  channel : Toml
  botsChannel : Toml

/-- `data.get(section, {})`. -/
def section_ (data : List (Str × Toml)) (name : String) : Toml :=
  (Toml.find data name.toList).getD (.table [])

def Sections.of (data : List (Str × Toml)) : Sections :=
  { data := data
    admin := section_ data "admin"
    adminUi := section_ data "admin_ui"
    channel := section_ data "channel"
    botsChannel := section_ data "bots_channel" }

/-- `value[key]`, if it is there. -/
def itemIfThere (key : Str) (value : Toml) : Except PyError (Option Toml) := do
  if ← value.contains key then return some (← value.item key) else return none

/-- `_root_value`. -/
def rootValue (doc : Sections) (key : Str) : Except PyError (Option Toml) :=
  match Toml.find doc.data key with
  | some value => .ok (some value)
  | none => do
      match ← itemIfThere key doc.channel with
      | some value => return some value
      | none => itemIfThere key doc.admin

/-- Where a setting is looked for. -/
inductive Source
  /-- `data.get(key)`. -/
  | root
  /-- `_root_value`. -/
  | rootValue
  /-- `_root_value`, and `bots_channel.get(key)` when that is `None`. -/
  | orBotsChannel
  deriving DecidableEq

def Source.fetch (doc : Sections) (key : Str) : Source → Except PyError (Option Toml)
  | .root => .ok (Toml.find doc.data key)
  | .rootValue => Config.rootValue doc key
  | .orBotsChannel => do
      match ← Config.rootValue doc key with
      | some value => return some value
      | none => doc.botsChannel.get key

/-! ## The settings, in the order of the code -/

structure RootSetting extends Setting BotConfig where
  source : Source

def rootSettings : List RootSetting :=
  [⟨⟨"name".toList, .truthy, .text ⟨BotConfig.name, fun v c => { c with name := v },
      fun _ _ => rfl⟩⟩, .root⟩,
    ⟨⟨"game_url".toList, .truthy, .text ⟨BotConfig.gameUrl, fun v c => { c with gameUrl := v },
      fun _ _ => rfl⟩⟩, .root⟩,
    ⟨⟨"log_level".toList, .truthy, .level ⟨BotConfig.logLevel,
      fun v c => { c with logLevel := v }, fun _ _ => rfl⟩⟩, .rootValue⟩,
    ⟨⟨"packet_max_chars".toList, .truthy, .number ⟨BotConfig.packetMaxChars,
      fun v c => { c with packetMaxChars := v }, fun _ _ => rfl⟩⟩, .rootValue⟩,
    ⟨⟨"announce_on_start".toList, .there, .flag ⟨BotConfig.announceOnStart,
      fun v c => { c with announceOnStart := v }, fun _ _ => rfl⟩⟩, .rootValue⟩,
    ⟨⟨"max_watchers_per_session".toList, .truthy, .number ⟨BotConfig.maxWatchersPerSession,
      fun v c => { c with maxWatchersPerSession := v }, fun _ _ => rfl⟩⟩, .rootValue⟩,
    ⟨⟨"session_poll_seconds".toList, .there, .number ⟨BotConfig.sessionPollSeconds,
      fun v c => { c with sessionPollSeconds := v }, fun _ _ => rfl⟩⟩, .rootValue⟩,
    ⟨⟨"advert_enabled".toList, .there, .flag ⟨BotConfig.advertEnabled,
      fun v c => { c with advertEnabled := v }, fun _ _ => rfl⟩⟩, .rootValue⟩,
    ⟨⟨"advert_flood".toList, .there, .flag ⟨BotConfig.advertFlood,
      fun v c => { c with advertFlood := v }, fun _ _ => rfl⟩⟩, .rootValue⟩,
    ⟨⟨"advert_interval_seconds".toList, .truthy, .number ⟨BotConfig.advertIntervalSeconds,
      fun v c => { c with advertIntervalSeconds := v }, fun _ _ => rfl⟩⟩, .rootValue⟩,
    ⟨⟨"advert_cooldown_seconds".toList, .truthy, .number ⟨BotConfig.advertCooldownSeconds,
      fun v c => { c with advertCooldownSeconds := v }, fun _ _ => rfl⟩⟩, .rootValue⟩,
    ⟨⟨"send_spacing_seconds".toList, .truthy, .real ⟨BotConfig.sendSpacingSeconds,
      fun v c => { c with sendSpacingSeconds := v }, fun _ _ => rfl⟩⟩, .rootValue⟩,
    ⟨⟨"max_send_queue_depth".toList, .truthy, .number ⟨BotConfig.maxSendQueueDepth,
      fun v c => { c with maxSendQueueDepth := v }, fun _ _ => rfl⟩⟩, .rootValue⟩,
    ⟨⟨"channel_rx_guard_seconds".toList, .there, .real ⟨BotConfig.channelRxGuardSeconds,
      fun v c => { c with channelRxGuardSeconds := v }, fun _ _ => rfl⟩⟩, .rootValue⟩,
    ⟨⟨"dm_ack_enabled".toList, .there, .flag ⟨BotConfig.dmAckEnabled,
      fun v c => { c with dmAckEnabled := v }, fun _ _ => rfl⟩⟩, .rootValue⟩,
    ⟨⟨"dm_ack_max_attempts".toList, .there, .number ⟨BotConfig.dmAckMaxAttempts,
      fun v c => { c with dmAckMaxAttempts := v }, fun _ _ => rfl⟩⟩, .rootValue⟩,
    ⟨⟨"dm_ack_max_flood_attempts".toList, .there, .number ⟨BotConfig.dmAckMaxFloodAttempts,
      fun v c => { c with dmAckMaxFloodAttempts := v }, fun _ _ => rfl⟩⟩, .rootValue⟩,
    ⟨⟨"dm_ack_flood_after".toList, .there, .number ⟨BotConfig.dmAckFloodAfter,
      fun v c => { c with dmAckFloodAfter := v }, fun _ _ => rfl⟩⟩, .rootValue⟩,
    ⟨⟨"dm_ack_timeout_seconds".toList, .there, .real ⟨BotConfig.dmAckTimeoutSeconds,
      fun v c => { c with dmAckTimeoutSeconds := v }, fun _ _ => rfl⟩⟩, .rootValue⟩,
    ⟨⟨"dm_ack_abandon_response".toList, .there, .flag ⟨BotConfig.dmAckAbandonResponse,
      fun v c => { c with dmAckAbandonResponse := v }, fun _ _ => rfl⟩⟩, .rootValue⟩,
    ⟨⟨"bots_enabled".toList, .there, .flag ⟨BotConfig.botsEnabled,
      fun v c => { c with botsEnabled := v }, fun _ _ => rfl⟩⟩, .orBotsChannel⟩,
    ⟨⟨"bots_cooldown_seconds".toList, .there, .real ⟨BotConfig.botsCooldownSeconds,
      fun v c => { c with botsCooldownSeconds := v }, fun _ _ => rfl⟩⟩, .orBotsChannel⟩]

/-- What is taken from `admin_ui`, where it is tested by `key in admin_ui`. -/
def uiSettings : List (Setting AdminUIConfig) :=
  [⟨"enabled".toList, .there, .flag ⟨AdminUIConfig.enabled,
      fun v c => { c with enabled := v }, fun _ _ => rfl⟩⟩,
    ⟨"bind".toList, .there, .text ⟨AdminUIConfig.bind,
      fun v c => { c with bind := v }, fun _ _ => rfl⟩⟩,
    ⟨"port".toList, .there, .number ⟨AdminUIConfig.port,
      fun v c => { c with port := v }, fun _ _ => rfl⟩⟩,
    ⟨"db_path".toList, .there, .text ⟨AdminUIConfig.dbPath,
      fun v c => { c with dbPath := v }, fun _ _ => rfl⟩⟩,
    ⟨"access_token_ttl_seconds".toList, .there, .number ⟨AdminUIConfig.accessTokenTtlSeconds,
      fun v c => { c with accessTokenTtlSeconds := v }, fun _ _ => rfl⟩⟩,
    ⟨"refresh_token_ttl_seconds".toList, .there, .number ⟨AdminUIConfig.refreshTokenTtlSeconds,
      fun v c => { c with refreshTokenTtlSeconds := v }, fun _ _ => rfl⟩⟩,
    ⟨"event_retention_days".toList, .there, .number ⟨AdminUIConfig.eventRetentionDays,
      fun v c => { c with eventRetentionDays := v }, fun _ _ => rfl⟩⟩,
    ⟨"event_queue_size".toList, .there, .number ⟨AdminUIConfig.eventQueueSize,
      fun v c => { c with eventQueueSize := v }, fun _ _ => rfl⟩⟩,
    ⟨"live_buffer_events".toList, .there, .number ⟨AdminUIConfig.liveBufferEvents,
      fun v c => { c with liveBufferEvents := v }, fun _ _ => rfl⟩⟩,
    ⟨"max_live_streams".toList, .there, .number ⟨AdminUIConfig.maxLiveStreams,
      fun v c => { c with maxLiveStreams := v }, fun _ _ => rfl⟩⟩,
    ⟨"log_buffer_lines".toList, .there, .number ⟨AdminUIConfig.logBufferLines,
      fun v c => { c with logBufferLines := v }, fun _ _ => rfl⟩⟩,
    ⟨"max_log_streams".toList, .there, .number ⟨AdminUIConfig.maxLogStreams,
      fun v c => { c with maxLogStreams := v }, fun _ _ => rfl⟩⟩,
    ⟨"radio_cache_seconds".toList, .there, .real ⟨AdminUIConfig.radioCacheSeconds,
      fun v c => { c with radioCacheSeconds := v }, fun _ _ => rfl⟩⟩,
    ⟨"radio_message_window".toList, .there, .number ⟨AdminUIConfig.radioMessageWindow,
      fun v c => { c with radioMessageWindow := v }, fun _ _ => rfl⟩⟩,
    ⟨"radio_message_contacts".toList, .there, .number ⟨AdminUIConfig.radioMessageContacts,
      fun v c => { c with radioMessageContacts := v }, fun _ _ => rfl⟩⟩,
    ⟨"radio_write_enabled".toList, .there, .flag ⟨AdminUIConfig.radioWriteEnabled,
      fun v c => { c with radioWriteEnabled := v }, fun _ _ => rfl⟩⟩,
    ⟨"radio_write_min_interval_seconds".toList, .there, .real
      ⟨AdminUIConfig.radioWriteMinIntervalSeconds,
      fun v c => { c with radioWriteMinIntervalSeconds := v }, fun _ _ => rfl⟩⟩]

/-! ## Warnings -/

/-- `_ADMIN_KEYS`. -/
def adminKeys : List Str := ["pubkeys".toList]

/-- `_ADMIN_UI_KEYS`. -/
def adminUiKeys : List Str :=
  ["enabled", "bind", "port", "db_path", "access_token_ttl_seconds", "refresh_token_ttl_seconds",
    "event_retention_days", "event_queue_size", "live_buffer_events", "max_live_streams",
    "log_buffer_lines", "max_log_streams", "radio_cache_seconds", "radio_message_window",
    "radio_message_contacts", "radio_write_enabled",
    "radio_write_min_interval_seconds"].map String.toList

/-- `_CHANNEL_KEYS`. -/
def channelKeys : List Str := ["index".toList, "name".toList, "secret".toList]

/-- `_ROOT_OPTIONAL_KEYS`. -/
def rootOptionalKeys : List Str :=
  ["log_level", "packet_max_chars", "announce_on_start", "bots_cooldown_seconds",
    "max_watchers_per_session", "advert_enabled", "advert_flood", "advert_interval_seconds",
    "advert_cooldown_seconds", "send_spacing_seconds", "max_send_queue_depth",
    "channel_rx_guard_seconds", "dm_ack_enabled", "dm_ack_max_attempts",
    "dm_ack_max_flood_attempts", "dm_ack_flood_after", "dm_ack_timeout_seconds",
    "dm_ack_abandon_response", "bots_enabled", "session_poll_seconds"].map String.toList

/-- The warning of a key that belongs to the root. -/
def misplaced (section_ key : Str) : Str :=
  key ++ " is under [".toList ++ section_ ++
    "] but belongs at the top level of zorkbot.toml; applying anyway".toList

/-- The warning of a key, if any. What has no hash raises. -/
def warningOf (py : Python) (section_ : Str) (allowed : List Str) :
    Toml → Except PyError (Option Str)
  | .str key =>
      if key ∈ allowed then .ok none
      else if key ∈ rootOptionalKeys then .ok (some (misplaced section_ key))
      else .ok (some ("unknown key under [".toList ++ section_ ++ "]: ".toList ++ key))
  | .arr _ | .table _ => .error .type
  | key => .ok (some ("unknown key under [".toList ++ section_ ++ "]: ".toList ++ key.toStr py))

/-- `_warn_misplaced_section_keys`. -/
def warnMisplacedSectionKeys (py : Python) (section_ : String) (values : Toml)
    (allowed : List Str) : Except PyError (List Str) := do
  let keys ← values.sorted py
  let warnings ← keys.mapM (warningOf py section_.toList allowed)
  return warnings.reduceOption

/-! ## Loading -/

/-- The channel of a section with something in it. -/
def channelOf (py : Python) (section_ : Toml) (index : Int) (name : Str) :
    Except PyError (Option ChannelConfig) :=
  if section_.truthy then do
    let index ← (← section_.get "index".toList).elim (.ok index) (Toml.toInt py)
    let name := (← section_.get "name".toList).elim name (Toml.toStr py)
    return some { index := index, name := name }
  else return none

/-- The part for `channel`. -/
def applyChannel (py : Python) (doc : Sections) (config : BotConfig) :
    Except PyError BotConfig := do
  match ← channelOf py doc.channel config.channel.index zorkChannelName with
  | some channel => return { config with channel := channel }
  | none => return config

/-- The part for `bots_channel`. -/
def applyBotsChannel (py : Python) (doc : Sections) (config : BotConfig) :
    Except PyError BotConfig := do
  match ← channelOf py doc.botsChannel 0 botsChannelName with
  | some channel => return { config with botsChannel := some channel }
  | none => return config

/-- The part for `admin`. -/
def applyAdmin (py : Python) (doc : Sections) (config : BotConfig) : Except PyError BotConfig := do
  match ← doc.admin.get "pubkeys".toList with
  | some pubkeys =>
      if pubkeys.truthy then
        return { config with admin := { pubkeys := (← pubkeys.elements).map (Toml.toStr py) } }
      else return config
  | none => return config

/-- The part for `admin_ui`. -/
def applyAdminUi (py : Python) (doc : Sections) (config : BotConfig) :
    Except PyError BotConfig :=
  if doc.adminUi.truthy then do
    let ui ← uiSettings.foldlM
      (fun ui s => do s.apply py (← itemIfThere s.key doc.adminUi) ui) config.adminUi
    return { config with adminUi := ui }
  else .ok config

/-- `_apply_toml`, with the warnings. -/
def applyToml (py : Python) (data : List (Str × Toml)) (config : BotConfig) :
    Except PyError (List Str × BotConfig) := do
  let doc := Sections.of data
  let admin ← warnMisplacedSectionKeys py "admin" doc.admin adminKeys
  let adminUi ← warnMisplacedSectionKeys py "admin_ui" doc.adminUi adminUiKeys
  let channel ← warnMisplacedSectionKeys py "channel" doc.channel channelKeys
  let botsChannel ← warnMisplacedSectionKeys py "bots_channel" doc.botsChannel channelKeys
  let config ← rootSettings.foldlM
    (fun config s => do s.apply py (← s.source.fetch doc s.key) config) config
  let config ← applyChannel py doc config
  let config ← applyBotsChannel py doc config
  let config ← applyAdmin py doc config
  let config ← applyAdminUi py doc config
  return (admin ++ adminUi ++ channel ++ botsChannel, config)

/-- What an environment variable overrides, and with which value. -/
structure Override where
  variable_ : Str
  value (py : Python) (text : Str) : Toml
  slot : Slot BotConfig

def overrides : List Override :=
  [⟨"GAME_URL".toList, fun _ => .str, .text ⟨BotConfig.gameUrl,
      fun v c => { c with gameUrl := v }, fun _ _ => rfl⟩⟩,
    ⟨"ADMIN_UI_ENABLED".toList,
      fun py text => .bool (py.lower (Bot.strip text) ∈
        ["1".toList, "true".toList, "yes".toList, "on".toList]),
      .flag ⟨fun c => c.adminUi.enabled,
        fun v c => { c with adminUi := { c.adminUi with enabled := v } }, fun _ _ => rfl⟩⟩,
    ⟨"ADMIN_UI_BIND".toList, fun _ => .str, .text ⟨fun c => c.adminUi.bind,
      fun v c => { c with adminUi := { c.adminUi with bind := v } }, fun _ _ => rfl⟩⟩,
    ⟨"ADMIN_UI_PORT".toList, fun _ => .str, .number ⟨fun c => c.adminUi.port,
      fun v c => { c with adminUi := { c.adminUi with port := v } }, fun _ _ => rfl⟩⟩,
    ⟨"ADMIN_UI_DB".toList, fun _ => .str, .text ⟨fun c => c.adminUi.dbPath,
      fun v c => { c with adminUi := { c.adminUi with dbPath := v } }, fun _ _ => rfl⟩⟩]

/-- `if text := os.getenv(..)`. -/
def Override.apply (py : Python) (env : Str → Option Str) (config : BotConfig) (o : Override) :
    Except PyError BotConfig :=
  match Bot.truthy (env o.variable_) with
  | some text => o.slot.store py (o.value py text) config
  | none => .ok config

/-- `load_config`, where the file was read as `data`, if there is one. -/
def loadConfig (py : Python) (env : Str → Option Str) (data : Option (List (Str × Toml))) :
    Except PyError (List Str × BotConfig) := do
  let (warnings, config) ←
    match data with
    | some data => applyToml py data {}
    | none => .ok ([], {})
  let config ← overrides.foldlM (Override.apply py env) config
  return (warnings, config)

end Zorkbot.Config
