/-
Content: everything that authors supply for one game.

`Content.merge` joins the content of two sources.  Templates of one id replace each other,
at the place of the first; events never do.
-/
import EventScript.Event.Basic
import EventScript.Cast.Template

namespace EventScript

/-- The templates, tags and events of a game. -/
structure Content where
  templates : Mapping Template
  tags : Mapping TagTemplate
  events : List Event
  deriving Repr, Inhabited

namespace Content

/-- No content. -/
def empty : Content := ⟨.empty, .empty, []⟩

/-- Content from lists in the order of declaration. -/
def ofLists (templates : List Template) (tags : List TagTemplate) (events : List Event) :
    Content :=
  ⟨.ofList (templates.map fun t => (t.id, t)), .ofList (tags.map fun t => (t.id, t)), events⟩

/-- The content of a source and, on top of it, of another. -/
def merge (a b : Content) : Content :=
  ⟨a.templates.merge b.templates, a.tags.merge b.tags, a.events ++ b.events⟩

/-- The events as a catalogue. -/
def catalogue (c : Content) : Catalogue :=
  ⟨c.events⟩

/-- The tags that a player may choose at the start. -/
def startTags (c : Content) : List TagTemplate :=
  c.tags.values.filter TagTemplate.isStartTag

end Content

end EventScript
