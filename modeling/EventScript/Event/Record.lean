/-
Events, content and settings as documents.

A content document is a mapping with up to three sections, each under a Chinese or an
English key; the Chinese key comes first.  A section that is empty in any way has no
members.

`Format.standard` is the format of files in which all of them are read so.
-/
import EventScript.Cast.Record
import EventScript.Document.Reader
import EventScript.Loading

namespace EventScript

open Decoder

/-- Reads an option. -/
def Choice.decoder : Decoder Choice :=
  record fun r => Choice.mk
    <$> withDefault r "显示文本" "text" "" text
    <*> withDefault r "操作指令" "action" "" text
    <*> withDefault r "可见条件" "visible_if" "" text

/-- Reads a branch. -/
def Branch.decoder : Decoder Branch :=
  record fun r => Branch.mk
    <$> withDefault r "注释" "note" "" text
    <*> withDefault r "判别式" "condition" "" text
    <*> withDefault r "操作指令" "action" "" text
    <*> withDefault r "跳转事件ID" "next_event_id" none (optional text)

/-- Reads an event. -/
def Event.decoder : Decoder Event :=
  record fun r => Event.mk
    <$> required r "id" "id" text
    <*> withDefault r "注释" "note" "" text
    <*> withDefault r "权重" "weight" 1.0 number
    <*> withDefault r "可触发次数" "max_triggers" (-1) integer
    <*> withDefault r "标签组" "tags" [] (list text)
    <*> withDefault r "触发条件" "trigger" "" text
    <*> withDefault r "预操作指令" "pre_action" "" text
    <*> withDefault r "标题" "title" "" text
    <*> withDefault r "正文" "body" "" text
    <*> withDefault r "操作指令" "action" "" text
    <*> withDefault r "选项组" "options" [] (list Choice.decoder)
    <*> withDefault r "分支组" "branches" [] (list Branch.decoder)

/-- Reads settings. -/
def Settings.decoder : Decoder Settings :=
  let s := Settings.standard
  record fun r =>
    let field {α : Type} (name : String) (default : α) (read : Decoder α) : Checked α :=
      withDefault r name name default read
    Settings.mk
    <$> field "player_id" s.playerId text
    <*> field "trainer_template_id" s.trainerTemplate text
    <*> field "instance_id_prefixes" s.idPrefixes (sequence text)
    <*> field "default_calling" s.defaultCalling text
    <*> field "split_personality_tag" s.splitTag text
    <*> field "wedding_ring_tag" s.ringTag text
    <*> field "pregnancy_tag" s.pregnancyTag text
    <*> field "pregnancy_layers" s.pregnancyLayers integer
    <*> field "overworked_tag" s.overworkTag text
    <*> field "confinement_tag" s.confinementTag text
    <*> field "ending_event_tag" s.endingTag text
    <*> field "work_event_tag" s.workTag text
    <*> field "pairing_chance" s.pairingChance (numberBetween 0.0 1.0)
    <*> field "split_auto_choice_chance" s.splitChoiceChance (numberBetween 0.0 1.0)
    <*> field "split_forget_chance" s.splitForgetChance (numberBetween 0.0 1.0)
    <*> field "memory_lost_text" s.memoryLostText text
    <*> field "unknown_choice_text" s.unknownChoiceText text
    <*> field "split_compensation_command" s.splitCompensation text
    <*> field "max_turns" s.maxTurns integer
    <*> field "max_chain_depth" s.maxChainDepth (integerFrom 1)
    <*> field "debug" s.strict boolean
    <*> field "seed" s.seed (optional integer)

/-- Files in the notation of `Document.read?`, with the decoders of records. -/
def Format.standard : Format where
  document? := Document.read? .narrow
  template := Template.decoder
  tag := TagTemplate.decoder
  event := Event.decoder
  settings := Settings.decoder

/-! ### Writing -/

/-- The document of an option. -/
def Choice.toDocument (c : Choice) : Document :=
  .mapping [("text", .text c.caption), ("action", .text c.action),
    ("visible_if", .text c.visibleIf)]

/-- The document of a branch. -/
def Branch.toDocument (b : Branch) : Document :=
  .mapping [("note", .text b.note), ("condition", .text b.condition),
    ("action", .text b.action), ("next_event_id", .ofText? b.next)]

/-- The document of an event. -/
def Event.toDocument (e : Event) : Document :=
  .mapping [("id", .text e.id), ("note", .text e.note), ("weight", .real e.weight),
    ("max_triggers", .int e.maxTriggers), ("tags", .texts e.tags),
    ("trigger", .text e.trigger), ("pre_action", .text e.preAction),
    ("title", .text e.title), ("body", .text e.body), ("action", .text e.action),
    ("options", .list (e.options.map Choice.toDocument)),
    ("branches", .list (e.branches.map Branch.toDocument))]

/-- The document of settings. -/
def Settings.toDocument (s : Settings) : Document :=
  .mapping [("player_id", .text s.playerId), ("trainer_template_id", .text s.trainerTemplate),
    ("instance_id_prefixes", .texts s.idPrefixes), ("default_calling", .text s.defaultCalling),
    ("split_personality_tag", .text s.splitTag), ("wedding_ring_tag", .text s.ringTag),
    ("pregnancy_tag", .text s.pregnancyTag), ("pregnancy_layers", .int s.pregnancyLayers),
    ("overworked_tag", .text s.overworkTag), ("confinement_tag", .text s.confinementTag),
    ("ending_event_tag", .text s.endingTag), ("work_event_tag", .text s.workTag),
    ("pairing_chance", .real s.pairingChance),
    ("split_auto_choice_chance", .real s.splitChoiceChance),
    ("split_forget_chance", .real s.splitForgetChance),
    ("memory_lost_text", .text s.memoryLostText),
    ("unknown_choice_text", .text s.unknownChoiceText),
    ("split_compensation_command", .text s.splitCompensation),
    ("max_turns", .int s.maxTurns), ("max_chain_depth", .int s.maxChainDepth),
    ("debug", .bool s.strict), ("seed", .ofInt? s.seed)]

end EventScript
