/-
Merging content.

The content of several documents is the same whether each of them is read by itself and the
results are merged, in whatever groups, or their sections are put one after another and read at
once.  This holds of all documents that can be read and whose sections are lists, in whatever
format: nothing need be known of the way texts and members of sections are read.

* `Content.merge_ofLists` — merging is putting lists together;
* `Content.ofDocument_eq` — what a document describes, section by section;
* `Content.Gathering.content_eq` — what a gathering of documents describes, by its shape;
* `Content.ofFolder_eq` — what a folder describes, whatever the order of its files;
* `merging_reads_all_sections_at_once` — all of this together, and what becomes of names that
  occur more than once: a template keeps the first place and the last value, an event is found
  at its first place, and none is lost.
-/
import EventScript.Event.Record
import Mathlib.Data.List.Forall2
import Mathlib.Data.List.Nodup
import Mathlib.Data.String.Basic

namespace EventScript

/-- The value that an id has in a mapping of everything in a list is the last one with the id, and
the ids come in the order of the first ones. -/
structure Mapping.Keeps {α : Type} (m : Mapping α) (id : α → String) (as : List α) : Prop where
  keys : m.keys = (as.map id).eraseDups
  get? : ∀ k, m.get? k = as.reverse.find? fun a => id a == k

theorem Mapping.keeps_ofList {α : Type} (id : α → String) (as : List α) :
    (ofList (as.map fun a => (id a, a))).Keeps id as where
  keys := by
    rw [keys_ofList, List.map_map]
    rfl
  get? k := by
    rw [get?_ofList, ← List.map_reverse, lookup_map_key]

namespace Content

theorem merge_ofLists (templates templates' : List Template) (tags tags' : List TagTemplate)
    (events events' : List Event) :
    (ofLists templates tags events).merge (ofLists templates' tags' events') =
      ofLists (templates ++ templates') (tags ++ tags') (events ++ events') := by
  unfold ofLists merge
  rw [Mapping.merge_ofList, Mapping.merge_ofList, List.map_append, List.map_append]

/-! ### Sections -/

/-- The sections of a content document. -/
inductive Part where
  | templates | tags | events

namespace Part

/-- All sections. -/
def all : List Part := [templates, tags, events]

/-- The two keys that a section may stand under, the favoured one first. -/
def keys : Part → String × String
  | templates => ("角色", "characters")
  | tags => ("标签", "tags")
  | events => ("事件", "events")

/-- The section of a document. -/
def of (p : Part) (d : Document) : Option Document :=
  (d.get? p.keys.1).or (d.get? p.keys.2)

/-- What the section of a document lists. -/
def listed (p : Part) (d : Document) : List Document :=
  ((p.of d).map Document.items).getD []

end Part

/-- Is a document a list? -/
def isList : Document → Bool
  | .list _ => true
  | _ => false

/-- Is a document null, or a mapping whose sections are lists? -/
def isContent : Document → Bool
  | .null => true
  | .mapping entries => Part.all.all fun p => (p.of (.mapping entries)).all isList
  | _ => false

/-- Is a document content that can be read? -/
def isValid (format : Format) (d : Document) : Bool :=
  isContent d && (ofDocument format d).isOk

theorem sectionMembers_eq {d : Document} (p : Part) (h : (p.of d).all isList = true) :
    sectionMembers d p.keys.1 p.keys.2 = .ok (p.listed d) := by
  have hmembers : ∀ s, isList s = true → members s = .ok s.items := by
    intro s hs
    cases s with
    | list items => rfl
    | _ => cases hs
  unfold Part.listed Part.of at *
  unfold sectionMembers
  cases hkey : d.get? p.keys.1 with
  | some s =>
    rw [hkey] at h
    exact hmembers s h
  | none =>
    rw [hkey, Option.none_or] at h
    rw [Option.none_or]
    cases hother : d.get? p.keys.2 with
    | some s =>
      rw [hother] at h
      exact hmembers s h
    | none => rfl

/-- What a document describes is what is listed in its sections. -/
theorem ofDocument_eq (format : Format) {d : Document} (h : isContent d = true) :
    ofDocument format d = (do
      let templates ← (Part.templates.listed d).mapM (readMember format.template)
      let tags ← (Part.tags.listed d).mapM (readMember format.tag)
      let events ← (Part.events.listed d).mapM (readMember format.event)
      pure (ofLists templates tags events)) := by
  cases d with
  | null => rfl
  | mapping entries =>
    have hlist : ∀ p ∈ Part.all, (p.of (.mapping entries)).all isList = true :=
      List.all_eq_true.mp h
    have htemplates := sectionMembers_eq .templates (hlist _ (by simp [Part.all]))
    have htags := sectionMembers_eq .tags (hlist _ (by simp [Part.all]))
    have hevents := sectionMembers_eq .events (hlist _ (by simp [Part.all]))
    unfold ofDocument
    simp only [Part.keys] at htemplates htags hevents
    simp only [htemplates, htags, hevents]
    rfl
  | _ => cases h

/-! ### Reading several documents -/

/-- The sections of some documents, put one after another, read as these lists. -/
structure Reads (format : Format) (ds : List Document) (templates : List Template)
    (tags : List TagTemplate) (events : List Event) : Prop where
  templates : (ds.flatMap Part.templates.listed).mapM (readMember format.template) = .ok templates
  tags : (ds.flatMap Part.tags.listed).mapM (readMember format.tag) = .ok tags
  events : (ds.flatMap Part.events.listed).mapM (readMember format.event) = .ok events

/-- A document whose sections are those of some documents, one after another. -/
structure Joins (ds : List Document) (d : Document) : Prop where
  isContent : isContent d = true
  listed : ∀ p : Part, p.listed d = ds.flatMap p.listed

/-- Documents joined into one. -/
def joined (ds : List Document) : Document :=
  .mapping (Part.all.map fun p => (p.keys.1, .list (ds.flatMap p.listed)))

theorem joins_joined (ds : List Document) : Joins ds (joined ds) where
  isContent := rfl
  listed p := by cases p <;> rfl

theorem mapM_ok_append {α β : Type} {read : α → Except Failure β} {as as' : List α}
    {bs bs' : List β} (h : as.mapM read = .ok bs) (h' : as'.mapM read = .ok bs') :
    (as ++ as').mapM read = .ok (bs ++ bs') := by
  rw [List.mapM_append, h, h']
  rfl

variable {format : Format}

theorem Reads.nil : Reads format [] [] [] [] := ⟨rfl, rfl, rfl⟩

theorem Reads.append {ds ds' : List Document} {ts ts' : List Template}
    {gs gs' : List TagTemplate} {es es' : List Event} (h : Reads format ds ts gs es)
    (h' : Reads format ds' ts' gs' es') :
    Reads format (ds ++ ds') (ts ++ ts') (gs ++ gs') (es ++ es') where
  templates := by
    rw [List.flatMap_append]
    exact mapM_ok_append h.templates h'.templates
  tags := by
    rw [List.flatMap_append]
    exact mapM_ok_append h.tags h'.tags
  events := by
    rw [List.flatMap_append]
    exact mapM_ok_append h.events h'.events

theorem Reads.ofDocument_eq {ds : List Document} {ts : List Template} {gs : List TagTemplate}
    {es : List Event} (h : Reads format ds ts gs es) {d : Document} (hd : Joins ds d) :
    ofDocument format d = .ok (ofLists ts gs es) := by
  rw [Content.ofDocument_eq format hd.isContent, hd.listed, hd.listed, hd.listed, h.templates,
    h.tags, h.events]
  rfl

theorem exists_of_bind_eq_ok {α β : Type} {x : Except Failure α} {f : α → Except Failure β} {b : β}
    (h : x >>= f = .ok b) : ∃ a, x = .ok a ∧ f a = .ok b := by
  cases x with
  | error e => cases h
  | ok a => exact ⟨a, rfl, h⟩

theorem exists_reads_singleton {d : Document} (h : isValid format d = true) :
    ∃ ts gs es, Reads format [d] ts gs es ∧ ofDocument format d = .ok (ofLists ts gs es) := by
  obtain ⟨hcontent, hok⟩ := Bool.and_eq_true_iff.mp h
  cases hd : ofDocument format d with
  | error f =>
    rw [hd] at hok
    cases hok
  | ok c =>
    have hparts := hd
    rw [ofDocument_eq format hcontent] at hparts
    obtain ⟨ts, hts, hparts⟩ := exists_of_bind_eq_ok hparts
    obtain ⟨gs, hgs, hparts⟩ := exists_of_bind_eq_ok hparts
    obtain ⟨es, hes, hparts⟩ := exists_of_bind_eq_ok hparts
    have hlisted : ∀ p : Part, [d].flatMap p.listed = p.listed d := fun _ =>
      List.flatMap_singleton ..
    exact ⟨ts, gs, es, ⟨hlisted _ ▸ hts, hlisted _ ▸ hgs, hlisted _ ▸ hes⟩, hparts.symm⟩

/-! ### Gatherings -/

/-- Documents that are gathered, by twos, in some order, or not at all. -/
inductive Gathering where
  | nothing
  | one (d : Document)
  | both (a b : Gathering)

namespace Gathering

/-- The documents of a gathering, from left to right. -/
def documents : Gathering → List Document
  | nothing => []
  | one d => [d]
  | both a b => a.documents ++ b.documents

/-- The content of a gathering, merged as it is gathered. -/
def content (format : Format) : Gathering → Except Failure Content
  | nothing => .ok .empty
  | one d => ofDocument format d
  | both a b => do
    let c ← a.content format
    let c' ← b.content format
    pure (c.merge c')

theorem content_eq {g : Gathering} (h : ∀ d ∈ g.documents, isValid format d = true) :
    ∃ ts gs es, Reads format g.documents ts gs es ∧
      g.content format = .ok (ofLists ts gs es) := by
  induction g with
  | nothing => exact ⟨[], [], [], .nil, rfl⟩
  | one d => exact exists_reads_singleton (h d (List.mem_singleton_self d))
  | both a b iha ihb =>
    obtain ⟨ha, hb⟩ := List.forall_mem_append.mp h
    obtain ⟨ts, gs, es, hreads, hcontent⟩ := iha ha
    obtain ⟨ts', gs', es', hreads', hcontent'⟩ := ihb hb
    refine ⟨_, _, _, hreads.append hreads', ?_⟩
    -- how the documents are grouped is forgotten here
    rw [content, hcontent, hcontent', ← merge_ofLists]
    rfl

end Gathering

/-! ### Folders -/

/-- The files of a folder come in the order of their names, however they are found. -/
theorem mergeSort_eq {files ordered : List File} (hperm : ordered.Perm files)
    (hsorted : ordered.Pairwise fun f f' => f.name < f'.name) :
    (files.mergeSort fun f f' => decide (f.name ≤ f'.name)) = ordered := by
  have hmem : ∀ f ∈ files.mergeSort fun f f' => decide (f.name ≤ f'.name), f ∈ ordered :=
    fun f hf => hperm.mem_iff.mpr ((List.mergeSort_perm files _).mem_iff.mp hf)
  have hnames : (ordered.map File.name).Nodup :=
    List.pairwise_map.mpr (hsorted.imp fun hlt => ne_of_lt hlt)
  have hordered : ordered.Pairwise fun f f' => f.name ≤ f'.name := hsorted.imp le_of_lt
  refine List.Perm.eq_of_pairwise (fun f f' hf hf' hle hle' => ?_) ?_ hordered
    ((List.mergeSort_perm files _).trans hperm.symm)
  · -- no two files of a folder have the same name
    exact List.inj_on_of_nodup_map hnames (hmem f hf) hf' (le_antisymm hle hle')
  · refine (List.pairwise_mergeSort (fun f f' f'' h h' => ?_) (fun f f' => ?_) files).imp
      of_decide_eq_true
    · exact decide_eq_true (le_trans (of_decide_eq_true h) (of_decide_eq_true h'))
    · rw [Bool.or_eq_true, decide_eq_true_eq, decide_eq_true_eq]
      exact le_total f.name f'.name

/-- Documents that are merged one after another, on top of others. -/
theorem foldl_merge {ds : List Document} (h : ∀ d ∈ ds, isValid format d = true) :
    ∃ parts ts gs es, ds.mapM (ofDocument format) = .ok parts ∧ Reads format ds ts gs es ∧
      ∀ ts₀ gs₀ es₀, parts.foldl merge (ofLists ts₀ gs₀ es₀) =
        ofLists (ts₀ ++ ts) (gs₀ ++ gs) (es₀ ++ es) := by
  induction ds with
  | nil =>
    refine ⟨[], [], [], [], rfl, .nil, fun ts₀ gs₀ es₀ => ?_⟩
    rw [List.foldl_nil, List.append_nil, List.append_nil, List.append_nil]
  | cons d rest ih =>
    obtain ⟨hd, hrest⟩ := List.forall_mem_cons.mp h
    obtain ⟨ts, gs, es, hreads, hcontent⟩ := exists_reads_singleton hd
    obtain ⟨parts, ts', gs', es', hparts, hreads', hfold⟩ := ih hrest
    refine ⟨ofLists ts gs es :: parts, _, _, _, ?_, hreads.append hreads', fun ts₀ gs₀ es₀ => ?_⟩
    · rw [List.mapM_cons, hcontent, hparts]
      rfl
    · rw [List.foldl_cons, merge_ofLists, hfold, List.append_assoc, List.append_assoc,
        List.append_assoc]

theorem mapM_ofText {files : List File} {ds : List Document}
    (h : List.Forall₂ (fun f d => format.document? f.text = some d) files ds) :
    (files.mapM fun f => ofText format f.text) = ds.mapM (ofDocument format) := by
  induction h with
  | nil => rfl
  | cons hread _ ih => rw [List.mapM_cons, List.mapM_cons, ih, ofText, hread]

/-- A folder describes what its files list, in the order of their names. -/
theorem ofFolder_eq {files ordered : List File} {ds : List Document}
    (hperm : ordered.Perm (files.filter fun f => isContentName f.name))
    (hsorted : ordered.Pairwise fun f f' => f.name < f'.name)
    (hread : List.Forall₂ (fun f d => format.document? f.text = some d) ordered ds)
    (hvalid : ∀ d ∈ ds, isValid format d = true) :
    ofFolder format files = ofDocument format (joined ds) := by
  obtain ⟨parts, ts, gs, es, hparts, hreads, hfold⟩ := foldl_merge hvalid
  rw [hreads.ofDocument_eq (joins_joined ds), ofFolder, mergeSort_eq hperm hsorted,
    mapM_ofText hread, hparts]
  exact congrArg Except.ok (hfold [] [] [])

/-- Everything that some documents list is in their content. -/
structure Collects (format : Format) (c : Content) (ds : List Document) : Prop where
  templates : ∃ ts, (ds.flatMap Part.templates.listed).mapM (readMember format.template) = .ok ts ∧
    c.templates.Keeps Template.id ts
  tags : ∃ gs, (ds.flatMap Part.tags.listed).mapM (readMember format.tag) = .ok gs ∧
    c.tags.Keeps TagTemplate.id gs
  events : (ds.flatMap Part.events.listed).mapM (readMember format.event) = .ok c.events
  find? : ∀ id, c.catalogue.find? id =
    if id = "" then none else c.events.find? fun e => e.id == id
  contains : ∀ id, id ≠ "" → c.catalogue.contains id = (c.catalogue.find? id).isSome

theorem Reads.collects {ds : List Document} {ts : List Template} {gs : List TagTemplate}
    {es : List Event} (h : Reads format ds ts gs es) :
    Collects format (ofLists ts gs es) ds where
  templates := ⟨ts, h.templates, Mapping.keeps_ofList Template.id ts⟩
  tags := ⟨gs, h.tags, Mapping.keeps_ofList TagTemplate.id gs⟩
  events := h.events
  find? id := by
    unfold Catalogue.find?
    simp only [String.isEmpty_iff]
    rfl
  contains id hid := by
    rw [Catalogue.find?, if_neg (by rwa [String.isEmpty_iff]), List.isSome_find?]
    rfl

end Content

/-- Content is the same whether documents are read one by one and merged, in whatever groups, or
read as the one document whose sections are theirs, one after another. A template or tag stays
where its id was listed first and is what was listed last; an event is never lost, and is found
where its id was listed first. A folder is read like its files in the order of their names. All of
this is so in every format of files. -/
theorem merging_reads_all_sections_at_once (format : Format) :
    (∀ g : Content.Gathering, (∀ d ∈ g.documents, Content.isValid format d = true) →
      ∃ c : Content, g.content format = .ok c ∧
        (∀ d, Content.Joins g.documents d → Content.ofDocument format d = .ok c) ∧
        c.Collects format g.documents) ∧
    ∀ (files ordered : List File) (g : Content.Gathering),
      ordered.Perm (files.filter fun f => Content.isContentName f.name) →
      ordered.Pairwise (fun f f' => f.name < f'.name) →
      List.Forall₂ (fun f d => format.document? f.text = some d) ordered g.documents →
      (∀ d ∈ g.documents, Content.isValid format d = true) →
      (ContentSource.folder files).load format = g.content format := by
  refine ⟨fun g hvalid => ?_, fun files ordered g hperm hsorted hread hvalid => ?_⟩
  · obtain ⟨ts, gs, es, hreads, hcontent⟩ := Content.Gathering.content_eq hvalid
    exact ⟨_, hcontent, fun d hd => hreads.ofDocument_eq hd, hreads.collects⟩
  · obtain ⟨ts, gs, es, hreads, hcontent⟩ := Content.Gathering.content_eq hvalid
    rw [hcontent, ← hreads.ofDocument_eq (Content.joins_joined _)]
    exact Content.ofFolder_eq hperm hsorted hread hvalid

/-- Two chapters that describe the trainer and the first event each in their own way. -/
def chapters : List Document :=
  [.mapping [("角色", .list [.mapping [("id", .text "训练员"), ("名称", .text "甲")]]),
      ("events", .list [.mapping [("id", .text "晨练"), ("正文", .text "早。")]])],
    .mapping [("characters", .list [.mapping [("id", .text "特别周"), ("name", .text "小特")],
        .mapping [("id", .text "训练员"), ("name", .text "乙")]]),
      ("事件", .list [.mapping [("id", .text "晨练"), ("正文", .text "晚。")]])]]

/-- A folder of two content files, the second of them empty, and of one that is not read. -/
def chapterFiles : List File :=
  [⟨"b.yaml", ""⟩, ⟨"说明.txt", "["⟩, ⟨"a.yml", "标签:\n  - id: 富豪\n"⟩]

/-- What the first of them describes. -/
def wealth : Document :=
  .mapping [("标签", .list [.mapping [("id", .text "富豪")]])]

/-- A format in which these files are written. -/
def chapterFormat : Format :=
  { Format.standard with
    document? := fun text =>
      if text = "" then some .null
      else if text = "标签:\n  - id: 富豪\n" then some wealth
      else none }

theorem chapters_are_read_together :
    (∃ c, (Content.Gathering.both .nothing
        (.both (.one chapters[0]) (.one chapters[1]))).content chapterFormat = .ok c ∧
      Content.ofDocument chapterFormat (Content.joined chapters) = .ok c ∧
      c.templates.keys = ["训练员", "特别周"]) ∧
    (ContentSource.folder chapterFiles).load chapterFormat =
      (Content.Gathering.both (.one wealth) (.one .null)).content chapterFormat := by
  obtain ⟨hgather, hfolder⟩ := merging_reads_all_sections_at_once chapterFormat
  constructor
  · obtain ⟨c, hcontent, hjoined, hcollects⟩ := hgather
      (.both .nothing (.both (.one chapters[0]) (.one chapters[1]))) (by decide +kernel)
    obtain ⟨ts, hts, hkeeps⟩ := hcollects.templates
    refine ⟨c, hcontent, hjoined _ (Content.joins_joined chapters), hkeeps.keys.trans ?_⟩
    have hids : ((chapters.flatMap Content.Part.templates.listed).mapM
        (Content.readMember chapterFormat.template)).toOption.map (fun ts => ts.map Template.id) =
        some ["训练员", "特别周", "训练员"] := by decide +kernel
    have hids' : some (ts.map Template.id) = some ["训练员", "特别周", "训练员"] :=
      (congrArg (fun r => r.toOption.map fun ts => ts.map Template.id) hts).symm.trans hids
    rw [Option.some.inj hids']
    decide
  · refine hfolder chapterFiles [chapterFiles[2], chapterFiles[0]] _ ?_ ?_ ?_ ?_
    · exact .swap chapterFiles[0] chapterFiles[2] []
    · decide
    · exact .cons rfl (.cons rfl .nil)
    · exact List.forall_mem_cons.mpr ⟨by decide +kernel, List.forall_mem_singleton.mpr rfl⟩

end EventScript
