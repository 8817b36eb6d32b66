import CalvoProxy.Lib.Json

/-!
# The vision gate

`hasImageContent` (`router_policy_prompt.go`) looks at the parts of the messages only: it misses an
image in a tool result, and a content that is itself one part and says so by its type
(`vision_gate_iff`).
-/

namespace CalvoProxy

open List

open Json (Fields)

variable (part : Fields GoScalar)

def imageTypes : List String := ["image_url", "input_image", "image"]

def hasKey (key : String) : Bool := (part.lookup key).isSome

/-- `partType, _ := part["type"].(string)`. -/
def partType : String :=
  ((part.lookup "type").bind GoValue.asString).getD ""

def rawPartIsImage : GoValue → Bool
  | .obj part =>
    imageTypes.contains (partType part) || hasKey part "image_url" || hasKey part "image"
  | _ => false

def contentContainsImage : Option GoValue → Bool
  | some (.arr parts) => parts.any rawPartIsImage
  | some (.obj content) => hasKey content "image_url" || hasKey content "image"
  | _ => false

def rawMsgContainsImage : GoValue → Bool
  | .obj msg => contentContainsImage (msg.lookup "content")
  | _ => false

def hasImageContent (messages : List GoValue) : Bool := messages.any rawMsgContainsImage

def capVision : String := "vision"

def capTools : String := "tools"

def capsRequired (hasImages hasTools : Bool) : List String :=
  (if hasImages then [capVision] else []) ++ if hasTools then [capTools] else []

/-! ## Images in a request -/

def HasType (type : String) : Prop := part.lookup "type" = some (.scalar (.string type))

def TypedImage : Prop := ∃ type ∈ imageTypes, HasType part type

def KeyedImage : Prop :=
  (part.lookup "image").isSome ∨ (part.lookup "image_url").isSome

def ImagePart : Prop := TypedImage part ∨ KeyedImage part

/-- A content is a part or a list of parts, and a tool result is a part with a content. -/
inductive CarriesImage : GoValue → Prop
  | part {part : Fields GoScalar} (h : ImagePart part) : CarriesImage (.obj part)
  | toolResult {part : Fields GoScalar} {content : GoValue} (htype : HasType part "tool_result")
      (hcontent : part.lookup "content" = some content) (h : CarriesImage content) :
      CarriesImage (.obj part)
  | item {parts : List GoValue} {part : Fields GoScalar} (hmem : .obj part ∈ parts)
      (h : CarriesImage (.obj part)) : CarriesImage (.arr parts)

def SomeContent (P : GoValue → Prop) (messages : List GoValue) : Prop :=
  ∃ msg content, .obj msg ∈ messages ∧ msg.lookup "content" = some content ∧ P content

def ToolResultImage : Prop :=
  HasType part "tool_result" ∧ ∃ content, part.lookup "content" = some content ∧ CarriesImage content

/-- An image in a content list, or a content object that names its image by a key. -/
def Surfaced : GoValue → Prop
  | .arr parts => ∃ part, .obj part ∈ parts ∧ ImagePart part
  | .obj part => KeyedImage part
  | .scalar _ => False

/-- An image inside a tool result, or a content object that is an image by its type. -/
def Buried : GoValue → Prop
  | .arr parts => ∃ part, .obj part ∈ parts ∧ ToolResultImage part
  | .obj part => TypedImage part ∨ ToolResultImage part
  | .scalar _ => False

/-! ## What the gate sees -/

theorem hasKey_or_iff :
    (hasKey part "image_url" || hasKey part "image") = true ↔ KeyedImage part := by
  rw [Bool.or_eq_true, or_comm]
  rfl

theorem partType_eq_iff {part : Fields GoScalar} {type : String} (hne : type ≠ "") :
    partType part = type ↔ HasType part type := by
  unfold partType HasType
  cases part.lookup "type" with
  | none => simp [hne.symm]
  | some value =>
    cases value with
    | scalar s => cases s <;> simp [GoValue.asString, hne.symm]
    | arr items | obj fields => simp [GoValue.asString, hne.symm]

theorem imageTypes_contains_iff : imageTypes.contains (partType part) = true ↔ TypedImage part := by
  rw [contains_iff_mem]
  have hne : ∀ type ∈ imageTypes, type ≠ "" := by decide
  constructor
  · intro hmem
    exact ⟨partType part, hmem, (partType_eq_iff (hne _ hmem)).mp rfl⟩
  · rintro ⟨type, hmem, htype⟩
    rw [(partType_eq_iff (hne type hmem)).mpr htype]
    exact hmem

theorem rawPartIsImage_iff : rawPartIsImage (.obj part) = true ↔ ImagePart part := by
  rw [rawPartIsImage, Bool.or_assoc, Bool.or_eq_true, imageTypes_contains_iff, hasKey_or_iff]
  rfl

variable (content : GoValue)

theorem contentContainsImage_iff :
    contentContainsImage (some content) = true ↔ Surfaced content := by
  cases content with
  | scalar s => simp [contentContainsImage, Surfaced]
  | obj part => exact hasKey_or_iff part
  | arr parts =>
    rw [contentContainsImage, any_eq_true]
    constructor
    · rintro ⟨raw, hmem, hraw⟩
      cases raw with
      | scalar s | arr items => cases hraw
      | obj part => exact ⟨part, hmem, (rawPartIsImage_iff part).mp hraw⟩
    · rintro ⟨part, hmem, himage⟩
      exact ⟨.obj part, hmem, (rawPartIsImage_iff part).mpr himage⟩

theorem rawMsgContainsImage_iff (msg : Fields GoScalar) : rawMsgContainsImage (.obj msg) = true ↔
      ∃ content, msg.lookup "content" = some content ∧ Surfaced content := by
  rw [rawMsgContainsImage]
  cases msg.lookup "content" with
  | none => simp [contentContainsImage]
  | some content => simp [contentContainsImage_iff]

theorem hasImageContent_iff (messages : List GoValue) :
    hasImageContent messages = true ↔ SomeContent Surfaced messages := by
  rw [hasImageContent, any_eq_true]
  constructor
  · rintro ⟨raw, hmem, hraw⟩
    cases raw with
    | scalar s | arr items => cases hraw
    | obj msg =>
      obtain ⟨content, hcontent, h⟩ := (rawMsgContainsImage_iff msg).mp hraw
      exact ⟨msg, content, hmem, hcontent, h⟩
  · rintro ⟨msg, content, hmem, hcontent, h⟩
    exact ⟨.obj msg, hmem, (rawMsgContainsImage_iff msg).mpr ⟨content, hcontent, h⟩⟩

theorem carriesImage_obj_iff :
    CarriesImage (.obj part) ↔ ImagePart part ∨ ToolResultImage part := by
  constructor
  · intro h
    cases h with
    | part h => exact Or.inl h
    | toolResult htype hcontent h => exact Or.inr ⟨htype, _, hcontent, h⟩
  · rintro (h | ⟨htype, content, hcontent, h⟩)
    · exact .part h
    · exact .toolResult htype hcontent h

theorem carriesImage_iff : CarriesImage content ↔ Surfaced content ∨ Buried content := by
  cases content with
  | scalar s =>
    constructor
    · intro h
      cases h
    · rintro (h | h) <;> cases h
  | obj part =>
    rw [carriesImage_obj_iff, Surfaced, Buried, ImagePart]
    tauto
  | arr parts =>
    constructor
    · intro h
      cases h with
      | @item _ part hmem h =>
        rcases (carriesImage_obj_iff part).mp h with h | h
        · exact Or.inl ⟨part, hmem, h⟩
        · exact Or.inr ⟨part, hmem, h⟩
    · rintro (⟨part, hmem, h⟩ | ⟨part, hmem, h⟩)
      · exact .item hmem (.part h)
      · exact .item hmem ((carriesImage_obj_iff part).mpr (Or.inr h))

theorem mem_capsRequired_iff (hasImages hasTools : Bool) :
    capVision ∈ capsRequired hasImages hasTools ↔ hasImages = true := by
  cases hasImages <;> cases hasTools <;> decide

/-- The gate reports no image that is not there, and every image exactly if each request with a
buried one has one in the open too. -/
theorem vision_gate_iff (messages : List GoValue) (hasTools : Bool) :
    (¬ SomeContent CarriesImage messages → hasImageContent messages = false) ∧
    ((SomeContent CarriesImage messages → hasImageContent messages = true ∧
          capVision ∈ capsRequired (hasImageContent messages) hasTools) ↔
      (SomeContent Buried messages → SomeContent Surfaced messages)) := by
  have hgate := hasImageContent_iff messages
  refine ⟨fun hnone => ?_, ?_, ?_⟩
  · refine Bool.eq_false_iff.mpr fun htrue => hnone ?_
    obtain ⟨msg, content, hmem, hcontent, h⟩ := hgate.mp htrue
    exact ⟨msg, content, hmem, hcontent, (carriesImage_iff content).mpr (Or.inl h)⟩
  · rintro hsees ⟨msg, content, hmem, hcontent, h⟩
    refine hgate.mp (hsees ⟨msg, content, hmem, hcontent, ?_⟩).1
    exact (carriesImage_iff content).mpr (Or.inr h)
  · rintro hopen ⟨msg, content, hmem, hcontent, h⟩
    have hsurfaced : SomeContent Surfaced messages := by
      rcases (carriesImage_iff content).mp h with h | h
      · exact ⟨msg, content, hmem, hcontent, h⟩
      · exact hopen ⟨msg, content, hmem, hcontent, h⟩
    have htrue := hgate.mpr hsurfaced
    exact ⟨htrue, (mem_capsRequired_iff _ _).mpr htrue⟩

def imageBlock : GoValue :=
  .obj [("type", .scalar (.string "image")), ("source", .obj [("type", .scalar (.string "url"))])]

def screenshotResult : List GoValue :=
  [.obj [("role", .scalar (.string "user")),
    ("content", .arr [.obj [("type", .scalar (.string "tool_result")),
      ("tool_use_id", .scalar (.string "toolu_1")), ("content", .arr [imageBlock])]])]]

/-- A tool that returns a screenshot. -/
theorem tool_result_image_missed :
    SomeContent CarriesImage screenshotResult ∧ hasImageContent screenshotResult = false ∧
      capVision ∉ capsRequired (hasImageContent screenshotResult) true := by
  have himage : CarriesImage imageBlock := .part (Or.inl ⟨"image", by decide, rfl⟩)
  refine ⟨⟨_, _, mem_singleton_self _, rfl, ?_⟩, rfl, by decide⟩
  exact .item (mem_singleton_self _) (.toolResult rfl rfl (.item (mem_singleton_self _) himage))

end CalvoProxy
