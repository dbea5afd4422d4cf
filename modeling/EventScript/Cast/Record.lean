/-
Characters and templates as documents.

Every field has two names, one in Chinese or camel case and a plain one; a field without
a Chinese name has one name only.  Attributes that a document leaves out take their
defaults.
-/
import EventScript.Cast.Template
import EventScript.Document.Schema

namespace EventScript

open Decoder

/-- Reads a gender. -/
def Gender.decoder : Decoder Gender :=
  word Gender.ofName?

/-- Reads general attributes. -/
def generalDecoder : Decoder (Mapping Int) :=
  mergedInto (defaultGeneral.map Document.int) integer

/-- Reads race attributes. -/
def raceDecoder : Decoder (Mapping Int) :=
  mergedInto (defaultRace.map Document.int) integer

/-- Reads a tag. -/
def Tag.decoder : Decoder Tag :=
  record fun r => Tag.mk
    <$> required r "templateId" "template_id" text
    <*> withDefault r "添加日期" "added_turn" 0 integer
    <*> withDefault r "层数" "layers" 1 integer
    <*> withDefault r "目标" "targets" [] (list text)

/-- Reads a relation. -/
def Relationship.decoder : Decoder Relationship :=
  record fun r => Relationship.mk
    <$> withDefault r "友情" "friendship" 0 integer
    <*> withDefault r "爱情" "romance" 0 integer

/-- Reads a calling rule. -/
def CallingRule.decoder : Decoder CallingRule :=
  record fun r => CallingRule.mk
    <$> withDefault r "判别式" "condition" "" text
    <*> required r "称呼" "calling" text

/-- Reads a character. -/
def Character.decoder : Decoder Character :=
  record fun r => Character.mk
    <$> required r "instanceId" "instance_id" text
    <*> required r "templateId" "template_id" text
    <*> required r "名称" "name" text
    <*> withDefault r "性别" "gender" .female Gender.decoder
    <*> withDefault r "通用属性" "general" defaultGeneral generalDecoder
    <*> withDefault r "竞赛属性" "race" defaultRace raceDecoder
    <*> withDefault r "适性" "aptitudes" none (optional (mapping text))
    <*> withDefault r "标签组" "tags" [] (list Tag.decoder)
    <*> withDefault r "已触发事件" "triggered_events" .empty (mapping integer)
    <*> withDefault r "关系列表" "relations" .empty (mapping Relationship.decoder)
    <*> withDefault r "称呼列表" "calling_rules" [] (list CallingRule.decoder)
    <*> withDefault r "inTeam" "in_team" false boolean
    <*> withDefault r "recruitedAt" "recruited_at" none (optional integer)

/-- Reads the template of a tag. -/
def TagTemplate.decoder : Decoder TagTemplate :=
  record fun r => TagTemplate.mk
    <$> required r "id" "id" text
    <*> withDefault r "显示名" "display_name" "" text
    <*> withDefault r "描述" "description" "" text
    <*> withDefault r "稀有度" "rarity" 1 integer
    <*> withDefault r "互斥标签" "exclusive_with" [] (list text)
    <*> withDefault r "人类可用" "human_allowed" true boolean
    <*> withDefault r "马娘可用" "uma_allowed" true boolean
    <*> withDefault r "开局可选" "selectable_at_start" false boolean
    <*> withDefault r "显示层数" "show_layers" false boolean

/-- Reads the template of a character. -/
def Template.decoder : Decoder Template :=
  record fun r => Template.mk
    <$> required r "id" "id" text
    <*> required r "名称" "name" text
    <*> withDefault r "性别" "gender" .female Gender.decoder
    <*> withDefault r "初始标签" "initial_tags" [] (list text)
    <*> withDefault r "通用属性" "general" defaultGeneral generalDecoder
    <*> withDefault r "竞赛属性" "race" defaultRace raceDecoder
    <*> withDefault r "适性" "aptitudes" none (optional (mapping text))
    <*> withDefault r "isTrainer" "is_trainer" false boolean
    <*> withDefault r "称呼列表" "calling_rules" [] (list CallingRule.decoder)

/-! ### Writing -/

/-- The document of a mapping. -/
def Mapping.toDocument {α : Type} (write : α → Document) (m : Mapping α) : Document :=
  .mapping (m.map write).entries

/-- The document of a tag. -/
def Tag.toDocument (t : Tag) : Document :=
  .mapping [("template_id", .text t.template), ("added_turn", .int t.since),
    ("layers", .int t.layers), ("targets", .texts t.targets)]

/-- The document of a relation. -/
def Relationship.toDocument (r : Relationship) : Document :=
  .mapping [("friendship", .int r.friendship), ("romance", .int r.romance)]

/-- The document of a calling rule. -/
def CallingRule.toDocument (r : CallingRule) : Document :=
  .mapping [("condition", .text r.condition), ("calling", .text r.calling)]

/-- The document of aptitudes. -/
def aptitudesDocument (m : Option (Mapping String)) : Document :=
  (m.map (Mapping.toDocument .text)).getD .null

/-- The document of a character. -/
def Character.toDocument (c : Character) : Document :=
  .mapping [("instance_id", .text c.id), ("template_id", .text c.template),
    ("name", .text c.name), ("gender", .text c.gender.name),
    ("general", c.general.toDocument .int), ("race", c.race.toDocument .int),
    ("aptitudes", aptitudesDocument c.aptitudes), ("tags", .list (c.tags.map Tag.toDocument)),
    ("triggered_events", c.fired.toDocument .int),
    ("relations", c.relations.toDocument Relationship.toDocument),
    ("calling_rules", .list (c.callings.map CallingRule.toDocument)),
    ("in_team", .bool c.inTeam), ("recruited_at", .ofInt? c.joined)]

/-- The document of the template of a tag. -/
def TagTemplate.toDocument (t : TagTemplate) : Document :=
  .mapping [("id", .text t.id), ("display_name", .text t.displayName),
    ("description", .text t.description), ("rarity", .int t.rarity),
    ("exclusive_with", .texts t.exclusiveWith), ("human_allowed", .bool t.humanAllowed),
    ("uma_allowed", .bool t.umaAllowed), ("selectable_at_start", .bool t.selectableAtStart),
    ("show_layers", .bool t.showLayers)]

/-- The document of the template of a character. -/
def Template.toDocument (t : Template) : Document :=
  .mapping [("id", .text t.id), ("name", .text t.name), ("gender", .text t.gender.name),
    ("initial_tags", .texts t.initialTags), ("general", t.general.toDocument .int),
    ("race", t.race.toDocument .int), ("aptitudes", aptitudesDocument t.aptitudes),
    ("is_trainer", .bool t.isTrainer),
    ("calling_rules", .list (t.callings.map CallingRule.toDocument))]

end EventScript
