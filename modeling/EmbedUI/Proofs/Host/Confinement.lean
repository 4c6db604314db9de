import EmbedUI.Host.Frame
import EmbedUI.Proofs.Markup.Reference
import EmbedUI.Proofs.Markup.Tokenizer

/-!
# Frames confine what they show

The text of a resource is a document of its own, full of tags, quotes and references that were
escaped before, and it ends up in the value of one attribute. Whoever reads the frame finds exactly
one element, with the attributes that every frame has; what it may do is the same for all resources,
and the address and the text are found again as they were.

## The architecture

* **`Confines`**, **`Replaces`**: what the markup of a frame and of a placeholder is read as.
* **`confines_frameNode`**, **`replaces_placeholderNode`**: both nodes are read so, whatever strings
  they carry.
* **`frame_confined`**: the two together, for every resource.
-/

namespace EmbedUI.Host

open EmbedUI.Markup

/-! ## What is read -/

/-- How every frame looks. -/
def frameStyle : String :=
  "width: 100%; height: 600px; border: none; border-radius: 16px;"
    ++ " background-color: transparent;"

/-- The markup is one frame and nothing else. Its attributes are the five of every frame; it may run
scripts and no more; its title and its source document stand for the address and the text. -/
def Confines (r : Resource) (markup : String) : Prop :=
  ∃ title document : List Char,
    tokenize markup =
      [.opening "iframe".toList
          [("class".toList, "widgetry-frame".toList), ("title".toList, title),
            ("sandbox".toList, "allow-scripts".toList), ("srcdoc".toList, document),
            ("style".toList, frameStyle.toList)],
        .closing "iframe".toList] ∧
      decode title = r.address.toList ∧ decode document = r.text.toList

/-- The markup is one block with text in it and nothing else. The text names the media type. -/
def Replaces (mediaType markup : String) : Prop :=
  ∃ text : List Char,
    tokenize markup =
      .opening "div".toList [("class".toList, "widgetry-unsupported".toList)] ::
        text.map .text ++ [.closing "div".toList] ∧
      decode text = ("Unsupported resource type: " ++ mediaType).toList

/-! ## What is written -/

theorem tame_frameNode (r : Resource) : Tame (frameNode r) := by
  simp +decide [frameNode]

theorem tame_placeholderNode (u : Unsupported) : Tame (placeholderNode u) := by
  simp +decide [placeholderNode]

/-- Nothing in the style has to be escaped. -/
theorem escapeValue_frameStyle : escapeValue frameStyle.toList = frameStyle.toList := by
  decide +kernel

/-- **Frames.** -/
theorem confines_frameNode (r : Resource) : Confines r (frameNode r).render := by
  refine ⟨escapeValue r.address.toList, escapeValue r.text.toList, ?_, decode_escapeValue _,
    decode_escapeValue _⟩
  rw [tokenize_render (tame_frameNode r), ← escapeValue_frameStyle]
  rfl

/-- **Placeholders.** -/
theorem replaces_placeholderNode (u : Unsupported) :
    Replaces u.mediaType (placeholderNode u).render := by
  refine ⟨escapeText ("Unsupported resource type: " ++ u.mediaType).toList, ?_,
    decode_escapeText _⟩
  rw [tokenize_render (tame_placeholderNode u), placeholderNode, Node.tokens, nodesTokens,
    nodesTokens, Node.tokens, List.append_nil]
  rfl

/-! ## The main statement -/

theorem isMarkup_iff {r : Resource} : r.isMarkup = true ↔ r.mediaType = "text/html" :=
  beq_iff_eq

/-- **Frames confine their resource.** Markup is shown in a frame that holds it as it is and lets
it do no more than run scripts; any other resource is refused by its media type, or replaced by a
text that names this type. No address, text or media type adds an element or an attribute. -/
theorem frame_confined (r : Resource) :
    (r.mediaType = "text/html" →
      ∃ markup, frame r = .ok markup ∧ frameOrPlaceholder r = markup ∧ Confines r markup) ∧
    (r.mediaType ≠ "text/html" →
      frame r = .error ⟨r.mediaType⟩ ∧ Replaces r.mediaType (frameOrPlaceholder r)) := by
  constructor
  · intro hmarkup
    have hframe : frame r = .ok (frameNode r).render := if_pos (isMarkup_iff.mpr hmarkup)
    refine ⟨_, hframe, ?_, confines_frameNode r⟩
    rw [frameOrPlaceholder, hframe]
  · intro hother
    have hframe : frame r = .error ⟨r.mediaType⟩ :=
      if_neg fun hmarkup => hother (isMarkup_iff.mp hmarkup)
    have hshown : frameOrPlaceholder r = (placeholderNode ⟨r.mediaType⟩).render := by
      rw [frameOrPlaceholder, hframe]
    refine ⟨hframe, ?_⟩
    rw [hshown]
    exact replaces_placeholderNode ⟨r.mediaType⟩

/-- A document that tries to leave its frame. -/
def escapingDocument : Resource :=
  .ofMarkup "ui://a/\" sandbox=\"allow-same-origin\"/1"
    "<p class=\"&quot;\">&amp;lt;</p>\"></iframe><script>"

/-- A resource whose media type looks like markup. -/
def foreignResource : Resource := ⟨"ui://a", "text/html\"><script>&lt;", "", "text"⟩

theorem frame_confined_escapingDocument :
    (escapingDocument.mediaType = "text/html" ∧
      ∃ markup, frame escapingDocument = .ok markup ∧
        frameOrPlaceholder escapingDocument = markup ∧ Confines escapingDocument markup) ∧
    (foreignResource.mediaType ≠ "text/html" ∧
      frame foreignResource = .error ⟨foreignResource.mediaType⟩ ∧
        Replaces foreignResource.mediaType (frameOrPlaceholder foreignResource)) := by
  have hmarkup : escapingDocument.mediaType = "text/html" := rfl
  have hother : foreignResource.mediaType ≠ "text/html" := by decide
  exact ⟨⟨hmarkup, (frame_confined escapingDocument).1 hmarkup⟩,
    hother, (frame_confined foreignResource).2 hother⟩

end EmbedUI.Host
