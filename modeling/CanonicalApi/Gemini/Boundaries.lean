import CanonicalApi.Gemini.Prompt
import CanonicalApi.JsonPretty.Tags

/-!
# `CanonicalApi.Gemini.Boundaries`: the sections of a prompt

Each part of a prompt stands in a section between two tags. The parts are copied as they are,
and nothing keeps a tag out of them: `boundaries_fail` gives two contexts with different names
and one prompt.

`boundaries_when` has the exact condition. Each tag occurs once and the prompt determines the
request and the context exactly when no text that goes into the prompt contains a tag. A tag
that occurs once cuts the prompt in one way (`Occurrences.cut_before`), and the pretty texts
between the cuts determine their values (`toStringPretty_injective`).
-/

set_option autoImplicit false

namespace CanonicalApi

open JsonValue Occurrences

/-- The tags of a prompt. -/
def sectionTags : List String :=
  ["<application-markdown>", "</application-markdown>", "<context-markdown>",
    "</context-markdown>", "<context-json>", "</context-json>", "<quote-request-json>",
    "</quote-request-json>"]

/-! ### The tags of a prompt -/

/-- The parts of a prompt, each with the fixed text after it. -/
def promptParts (a b c d e f g : String) : List (List Char × List Char) :=
  [(a.toList, beforeApplicationMarkdown.toList), (b.toList, beforeContextId.toList),
    (c.toList, beforeContextName.toList), (d.toList, beforeContextMarkdown.toList),
    (e.toList, beforeContextJson.toList), (f.toList, beforeRequestJson.toList),
    (g.toList, afterRequestJson.toList)]

/-- The prompt as a template. -/
theorem toList_promptText (a b c d e f g : String) :
    (promptText a b c d e f g).toList =
      fill beforeFrameworks.toList (promptParts a b c d e f g) := by
  simp only [promptText, promptParts, String.toList_append, fill, List.append_assoc]

/-- The tags of the sections are tags. -/
theorem isTag_of_mem : ∀ tag ∈ sectionTags, isTag tag.toList = true := by
  decide

/-- The fixed texts between the parts. -/
def frameTexts : List (List Char) :=
  [beforeApplicationMarkdown.toList, beforeContextId.toList, beforeContextName.toList,
    beforeContextMarkdown.toList, beforeContextJson.toList, beforeRequestJson.toList,
    afterRequestJson.toList]

set_option maxRecDepth 2000 in
/-- The fixed texts close off the parts, and each tag occurs once in them. -/
theorem frame_tags : ∀ tag ∈ sectionTags,
    closedOff tag.toList beforeFrameworks.toList frameTexts = true ∧
      ((beforeFrameworks.toList :: frameTexts).map (occurrences tag.toList)).sum = 1 := by
  have h1 : beforeFrameworks.toList = _ := String.toList_ofList
  have h2 : beforeApplicationMarkdown.toList = _ := String.toList_ofList
  have h3 : beforeContextId.toList = _ := String.toList_ofList
  have h4 : beforeContextName.toList = _ := String.toList_ofList
  have h5 : beforeContextMarkdown.toList = _ := String.toList_ofList
  have h6 : beforeContextJson.toList = _ := String.toList_ofList
  have h7 : beforeRequestJson.toList = _ := String.toList_ofList
  have h8 : afterRequestJson.toList = _ := String.toList_ofList
  rw [frameTexts, h1, h2, h3, h4, h5, h6, h7, h8]
  decide

/-- The tags of the joined frameworks. -/
theorem occurrences_frameworks {tag : List Char} (htag : isTag tag = true)
    (frameworks : List String) :
    occurrences tag (", ".intercalate frameworks).toList = occurrencesIn tag frameworks := by
  have hjoined : ∀ lists : List (List Char), occurrences tag ([',', ' '].intercalate lists) =
      (lists.map (occurrences tag)).sum := by
    intro lists
    induction lists with
    | nil => rfl
    | cons l lists ih =>
      cases lists with
      | nil => simp
      | cons l' lists =>
        -- A tag holds no comma, so that it does not span two names.
        have hcomma := occurrences_punctuation htag (s := ',') (m := [' ']) (by decide) l
          ([',', ' '].intercalate (l' :: lists))
        rw [List.intercalate_cons_cons, List.append_assoc, List.map_cons, List.sum_cons, ← ih,
          ← hcomma]
        rfl
  rw [String.toList_intercalate, String.toList_ofList, hjoined, List.map_map]
  rfl

/-- An id has no tag. -/
theorem occurrences_toText {tag : List Char} (htag : isTag tag = true) (id : Uuid) :
    occurrences tag id.toText.toList = 0 := by
  have hdigit : ∀ n < 16, hexDigit n ≠ '<' := by decide
  obtain ⟨rest, rfl⟩ := tag_head htag
  refine occurrences_eq_zero_of_not_mem List.mem_cons_self fun hmem => ?_
  rcases mem_toText hmem with h | h
  · obtain ⟨i, -, hi⟩ := List.mem_map.mp h
    exact hdigit _ (Nat.mod_lt _ (by decide)) hi
  · cases h

/-- Two ids with one text are the same. -/
theorem toText_injective {id id' : Uuid} (h : id.toText.toList = id'.toText.toList) : id = id' := by
  have hinj : ∀ a < 16, ∀ b < 16, hexDigit a = hexDigit b → a = b := by decide
  have hlength : ∀ i : Uuid, i.digits.length = 32 := fun i => by simp [Uuid.digits]
  -- The hyphens stand at fixed places.
  have hdigits : id.digits = id'.digits := by
    have hsplit : ∀ (l : List Char) (i n : Nat), l.drop i = (l.drop i).take n ++ l.drop (i + n) :=
      fun l i n => by rw [← List.drop_drop, List.take_append_drop]
    have htake : ∀ (i : Uuid) (j n : Nat), ((i.digits.drop j).take n).length = min n (32 - j) :=
      fun i j n => by rw [List.length_take, List.length_drop, hlength]
    simp only [Uuid.toText, String.toList_ofList, List.append_assoc, List.cons_append] at h
    obtain ⟨h0, h⟩ :=
      List.append_inj h (by rw [List.length_take, List.length_take, hlength, hlength])
    obtain ⟨h8, h⟩ := List.append_inj (List.cons.inj h).2 (by rw [htake, htake])
    obtain ⟨h12, h⟩ := List.append_inj (List.cons.inj h).2 (by rw [htake, htake])
    obtain ⟨h16, h⟩ := List.append_inj (List.cons.inj h).2 (by rw [htake, htake])
    have h20 := (List.cons.inj h).2
    have h16' : id.digits.drop 16 = id'.digits.drop 16 := by rw [hsplit _ 16 4, h16, h20, ← hsplit]
    have h12' : id.digits.drop 12 = id'.digits.drop 12 := by rw [hsplit _ 12 4, h12, h16', ← hsplit]
    have h8' : id.digits.drop 8 = id'.digits.drop 8 := by rw [hsplit _ 8 4, h8, h12', ← hsplit]
    rw [← List.take_append_drop 8 id.digits, h0, h8', List.take_append_drop]
  have hnibble : ∀ k < 32, id.bits.toNat / 16 ^ k % 16 = id'.bits.toNat / 16 ^ k % 16 := by
    intro k hk
    have hget := congrArg (fun l => l[31 - k]?) hdigits
    have hindex : 31 - (31 - k) = k := by omega
    simp only [Uuid.digits, List.getElem?_map, List.getElem?_range (show 31 - k < 32 by omega),
      Option.map_some, Option.some.injEq, hindex] at hget
    exact hinj _ (Nat.mod_lt _ (by decide)) _ (Nat.mod_lt _ (by decide)) hget
  -- Equal digits up to a place give equal remainders.
  have hmod : ∀ n ≤ 32, id.bits.toNat % 16 ^ n = id'.bits.toNat % 16 ^ n := by
    intro n
    induction n with
    | zero => intro _; simp [Nat.mod_one]
    | succ n ih =>
      intro hn
      rw [Nat.mod_pow_succ, Nat.mod_pow_succ, ih (by omega), hnibble n (by omega)]
  have hlt : ∀ i : Uuid, i.bits.toNat < 16 ^ 32 := fun i => i.bits.isLt
  have hnat : id.bits.toNat = id'.bits.toNat := by
    have h32 := hmod 32 (le_refl _)
    rwa [Nat.mod_eq_of_lt (hlt id), Nat.mod_eq_of_lt (hlt id')] at h32
  cases id
  cases id'
  exact congrArg Uuid.mk (BitVec.eq_of_toNat_eq hnat)

/-! ### Reading a prompt back -/

/-- No tag occurs twice. -/
def Once (text : List Char) : Prop :=
  ∀ tag ∈ sectionTags, occurrences tag.toList text ≤ 1

/-- What occurs once in a text occurs at most once in its end. -/
theorem Once.of_append {a b : List Char} (h : Once (a ++ b)) : Once b :=
  fun tag htag => (occurrences_le_append a b).trans (h tag htag)

/-- A part in front of a fixed text with a tag is determined, and so is what follows. -/
theorem part_determined {tag : String} (htag : tag ∈ sectionTags)
    {next m r x x' rest rest' : List Char} (hnext : next = m ++ (tag.toList ++ r))
    (honce : Once (x ++ (next ++ rest)))
    (h : x ++ (next ++ rest) = x' ++ (next ++ rest')) : x = x' ∧ rest = rest' ∧ Once rest := by
  have hrest : Once rest := honce.of_append.of_append
  have hone := honce tag htag
  rw [hnext] at hone h
  obtain ⟨hx, ht⟩ := cut_before (tag_ne_nil (isTag_of_mem tag htag)) hone h
  exact ⟨hx, ht, hrest⟩

/-- Each fixed text that the recovery cuts at holds a tag. -/
theorem frame_cuts :
    (∃ m r, beforeApplicationMarkdown.toList = m ++ ("<application-markdown>".toList ++ r)) ∧
    (∃ m r, beforeContextId.toList = m ++ ("</application-markdown>".toList ++ r)) ∧
    (∃ m r, beforeContextMarkdown.toList = m ++ ("<context-markdown>".toList ++ r)) ∧
    (∃ m r, beforeContextJson.toList = m ++ ("</context-markdown>".toList ++ r)) ∧
    ∃ m r, beforeRequestJson.toList = m ++ ("</context-json>".toList ++ r) := by
  have hcut : ∀ {text tag : String} (before after : String), text = before ++ (tag ++ after) →
      ∃ m r, text.toList = m ++ (tag.toList ++ r) := by
    rintro _ tag before after rfl
    exact ⟨before.toList, after.toList, by rw [String.toList_append, String.toList_append]⟩
  exact ⟨hcut "\n\nAPPLICATION MARKDOWN CONTEXT\n" "\n" rfl,
    hcut "\n" "\n\nOWNER-SCOPED POSTGRES CONTEXT\nContext ID: " rfl, hcut "\n" "\n" rfl,
    hcut "\n" "\n<context-json>\n" rfl,
    hcut "\n" "\n\nNORMALIZED QUOTE REQUEST\n<quote-request-json>\n" rfl⟩

/-- A prompt in which no tag occurs twice determines its parts, when the ids have one length. -/
theorem promptText_determines {a b c d e f g a' b' c' d' e' f' g' : String}
    (honce : Once (promptText a b c d e f g).toList) (hid : c.toList.length = c'.toList.length)
    (h : promptText a b c d e f g = promptText a' b' c' d' e' f' g') :
    a = a' ∧ b = b' ∧ c = c' ∧ d = d' ∧ e = e' ∧ f = f' ∧ g = g' := by
  obtain ⟨⟨_, _, happlication⟩, ⟨_, _, happlication'⟩, ⟨_, _, hmarkdown⟩, ⟨_, _, hmarkdown'⟩,
    ⟨_, _, hjson⟩⟩ := frame_cuts
  have hlists := congrArg String.toList h
  rw [toList_promptText, toList_promptText] at hlists
  rw [toList_promptText] at honce
  simp only [promptParts, fill] at hlists honce
  -- The parts are cut off from the left. A part ends where the next tag stands first.
  obtain ⟨ha, hlists, honce⟩ := part_determined (by decide) happlication honce.of_append
    (List.append_cancel_left hlists)
  obtain ⟨hb, hlists, honce⟩ := part_determined (by decide) happlication' honce hlists
  -- The id has no tag of its own behind it, but its length is fixed.
  obtain ⟨hc, hlists⟩ := List.append_inj hlists hid
  obtain ⟨hd, hlists, honce⟩ := part_determined (by decide) hmarkdown
    honce.of_append.of_append (List.append_cancel_left hlists)
  obtain ⟨he, hlists, honce⟩ := part_determined (by decide) hmarkdown' honce hlists
  obtain ⟨hf, hlists, -⟩ := part_determined (by decide) hjson honce hlists
  have hg := List.append_cancel_right hlists
  simp only [String.toList_inj] at ha hb hc hd he hf hg
  exact ⟨ha, hb, hc, hd, he, hf, hg⟩

/-- A pattern occurs in no text of a list exactly when it is part of none of them. -/
theorem occurrencesIn_eq_zero_iff {pattern : List Char} (hne : pattern ≠ []) (texts : List String) :
    occurrencesIn pattern texts = 0 ↔ ∀ text ∈ texts, ¬ pattern <:+: text.toList := by
  induction texts with
  | nil => simp [occurrencesIn]
  | cons text texts ih =>
    have hcons := occurrencesIn_append pattern [text] texts
    have htext : occurrencesIn pattern [text] = occurrences pattern text.toList := by
      simp [occurrencesIn]
    rw [List.singleton_append] at hcons
    rw [hcons, htext, List.forall_mem_cons, Nat.add_eq_zero_iff, ih, occurrences_eq_zero_iff hne]

section

variable [CanonicalLib] [WireFields]

/-- The texts that go into a prompt: the frameworks, the two Markdown texts, the name, and the
texts and keys of both JSON values. -/
def promptTexts (request : AcceptedQuoteRequest) (context : CanonicalContext) : List String :=
  request.wire.frameworks ++ [request.applicationMarkdown, context.name, context.contextMarkdown] ++
    context.contextJson.texts ++ (JsonValue.object (WireFields.members request.wire)).texts

/-- Each tag occurs in a prompt once, and once more for each occurrence in its texts. -/
theorem occurrences_promptOf (request : AcceptedQuoteRequest) {context : CanonicalContext}
    (hproper : context.contextJson.proper = true) {tag : String} (hmem : tag ∈ sectionTags) :
    occurrences tag.toList (promptOf request context).toList =
      1 + occurrencesIn tag.toList (promptTexts request context) := by
  have htag := isTag_of_mem tag hmem
  obtain ⟨hclosed, hframe⟩ := frame_tags tag hmem
  -- In the request and the context a tag can only stand within one text.
  have hwire : occurrences tag.toList request.wire.toStringPretty.toList =
      occurrencesIn tag.toList (JsonValue.object (WireFields.members request.wire)).texts :=
    occurrences_toStringPretty htag (WireFields.proper request.wire)
  have htexts : ∀ a b c d e f g : String, (promptParts a b c d e f g).map Prod.snd = frameTexts :=
    fun _ _ _ _ _ _ _ => by simp only [promptParts, List.map_cons, List.map_nil, frameTexts]
  rw [promptOf, toList_promptText,
    occurrences_fill (tag_ne_nil htag) (by rw [htexts]; exact hclosed), htexts, hframe]
  simp only [promptParts, List.map_cons, List.map_nil, List.sum_cons, List.sum_nil,
    occurrences_frameworks htag, occurrences_toText htag, occurrences_toStringPretty htag hproper,
    hwire, promptTexts,
    occurrencesIn_append]
  simp only [occurrencesIn, List.map_cons, List.map_nil, List.sum_cons, List.sum_nil]
  omega

/-- A request is known by what is written for it. -/
theorem wire_eq_of_members {wire wire' : QuoteRequest}
    (h : WireFields.members wire = WireFields.members wire') : wire = wire' := by
  have hvalue : wire.toValue = wire'.toValue := by
    rw [WireFields.toValue_eq, WireFields.toValue_eq, h]
  cases wire
  cases wire'
  cases hvalue
  rfl

/-- A prompt in which no tag occurs twice determines the request and the context. -/
theorem promptOf_determines {request request' : AcceptedQuoteRequest}
    {context context' : CanonicalContext} (hproper : context.contextJson.proper = true)
    (hproper' : context'.contextJson.proper = true)
    (honce : Once (promptOf request context).toList)
    (h : promptOf request context = promptOf request' context') :
    request' = request ∧ context' = context := by
  -- The texts of two ids have one length, which separates the id from the name after it.
  have hlength : ∀ id : Uuid, id.toText.toList.length = 36 := fun id => by
    simp [Uuid.toText, Uuid.digits]
  obtain ⟨-, happlication, hid, hname, hmarkdown, hjson, hwire⟩ :=
    promptText_determines honce (by rw [hlength, hlength]) h
  -- Equal texts come from equal values.
  have hid' := toText_injective (congrArg String.toList hid)
  have hjson' := toStringPretty_injective hproper hproper' hjson
  have hwireProper : ∀ wire : QuoteRequest,
      (JsonValue.object (WireFields.members wire)).proper = true := WireFields.proper
  have hmembers := toStringPretty_injective (hwireProper request.wire) (hwireProper request'.wire)
    hwire
  have hwire' := wire_eq_of_members (JsonValue.object.inj hmembers)
  cases request
  cases request'
  cases context
  cases context'
  cases happlication
  cases hid'
  cases hname
  cases hmarkdown
  cases hjson'
  cases hwire'
  exact ⟨rfl, rfl⟩

/-- Each tag occurs once in a prompt, and the prompt determines the request and the context,
exactly when no text of it contains a tag. -/
theorem boundaries_when {request : AcceptedQuoteRequest} {context : CanonicalContext}
    {prompt : String} (hproper : context.contextJson.proper = true)
    (hprompt : buildPrompt request context = .ok prompt) :
    ((∀ tag ∈ sectionTags, occurrences tag.toList prompt.toList = 1) ∧
        ∀ request' context', context'.contextJson.proper = true →
          buildPrompt request' context' = .ok prompt → request' = request ∧ context' = context) ↔
      ∀ text ∈ promptTexts request context, ∀ tag ∈ sectionTags,
        ¬ tag.toList <:+: text.toList := by
  obtain ⟨-, rfl, -⟩ := buildPrompt_eq_ok_iff.mp hprompt
  -- The prompt itself has each tag once, so the tag occurs once more for every occurrence in a
  -- text.
  have hcount : ∀ tag ∈ sectionTags,
      (occurrences tag.toList (promptOf request context).toList = 1 ↔
        ∀ text ∈ promptTexts request context, ¬ tag.toList <:+: text.toList) := by
    intro tag htag
    rw [occurrences_promptOf request hproper htag,
      ← occurrencesIn_eq_zero_iff (tag_ne_nil (isTag_of_mem tag htag))]
    omega
  constructor
  · rintro ⟨honce, -⟩ text htext tag htag
    exact (hcount tag htag).mp (honce tag htag) text htext
  · intro hfree
    have honce : ∀ tag ∈ sectionTags,
        occurrences tag.toList (promptOf request context).toList = 1 :=
      fun tag htag => (hcount tag htag).mpr fun text htext => hfree text htext tag htag
    refine ⟨honce, fun request' context' hproper' hprompt' => ?_⟩
    obtain ⟨-, hsame, -⟩ := buildPrompt_eq_ok_iff.mp hprompt'
    -- Where each tag occurs once, the sections can be told apart, and each section gives back its
    -- text.
    exact promptOf_determines hproper hproper' (fun tag htag => (honce tag htag).le) hsame

end

/-! ### A forged section -/

section

attribute [local instance] fixtureLib fixtureFields

/-- A hosted service. -/
def hostedRequest : AcceptedQuoteRequest where
  applicationMarkdown := "# Product\nHosted service"
  wire := fixtureRequest

/-- A context whose name opens the section of its Markdown. -/
def forgedName : CanonicalContext where
  contextJson := .object []
  contextMarkdown := "c"
  id := Uuid.nil
  name := "a" ++ beforeContextMarkdown ++ "b"

/-- A context whose Markdown opens its section again. -/
def forgedMarkdown : CanonicalContext where
  contextJson := .object []
  contextMarkdown := "b" ++ beforeContextMarkdown ++ "c"
  id := Uuid.nil
  name := "a"

/-- Short contexts make a prompt with this request. -/
theorem buildPrompt_hosted {context : CanonicalContext} (hname : 0 < len context.name)
    (hname' : len context.name ≤ 200) (hmarkdown : len context.contextMarkdown ≤ 200)
    (hjson : context.contextJson = .object []) :
    buildPrompt hostedRequest context = .ok (promptOf hostedRequest context) := by
  have hcompact : len context.contextJson.compact = 2 := by
    rw [hjson]
    decide
  have hgrowth : growth 0 context.contextJson = 0 := by rw [hjson]; rfl
  have hvalid : context.validate = .ok () := by
    unfold CanonicalContext.validate
    rw [if_neg (by omega), if_neg (by rw [maxContextRecordBytes]; omega),
      if_neg (by rw [maxContextRecordBytes]; omega)]
  have hframeworks : len (", ".intercalate hostedRequest.wire.frameworks) ≤ 100 := by decide
  have happlication : len hostedRequest.applicationMarkdown = 24 := len_literal (by decide)
  have hmembers : len (compactMembers fixtureMembers) ≤ 1000 := by
    simp only [fixtureMembers, compactMembers, len_append, compact, compactItems]
    decide
  have hwire : len (JsonValue.object (WireFields.members hostedRequest.wire)).compact ≤ 1002 := by
    have hopen : len "\x7b" = 1 := len_literal (by decide)
    have hclose : len "\x7d" = 1 := len_literal (by decide)
    show len (JsonValue.object fixtureMembers).compact ≤ 1002
    rw [compact, len_append, len_append, hopen, hclose]
    omega
  have hwireGrowth : growth 0 (.object (WireFields.members hostedRequest.wire)) ≤ 1000 := by
    show growth 0 (.object fixtureMembers) ≤ 1000
    decide
  -- What is left is the sum of the bounds, far below the limit.
  refine buildPrompt_eq_ok_iff.mpr ⟨hvalid, rfl, ?_⟩
  rw [len_promptOf, admittedBytes, prettyBytes, promptTextBytes, maxPromptBytes]
  omega

/-- The lengths of the forged name and Markdown. -/
theorem len_forged : len forgedName.name = 22 ∧ len forgedMarkdown.contextMarkdown = 22 := by
  have ha : len "a" = 1 := len_literal (by decide)
  have hb : len "b" = 1 := len_literal (by decide)
  have hc : len "c" = 1 := len_literal (by decide)
  have htag : len beforeContextMarkdown = 20 := len_literal (by decide)
  rw [forgedName, forgedMarkdown]
  simp only [len_append, ha, hb, hc, htag]
  decide

/-- The context with the forged name passes every check, so its prompt is built and sent. -/
theorem buildPrompt_forgedName :
    buildPrompt hostedRequest forgedName = .ok (promptOf hostedRequest forgedName) := by
  have hmarkdown : len forgedName.contextMarkdown = 1 := len_literal (by decide)
  have hname := len_forged.1
  exact buildPrompt_hosted (by omega) (by omega) (by omega) rfl

/-- One context forges the tags in its name, the other in its Markdown. The two names differ, and
the prompts are the same. -/
theorem boundaries_fail :
    ∃ prompt, buildPrompt hostedRequest forgedName = .ok prompt ∧
      buildPrompt hostedRequest forgedMarkdown = .ok prompt ∧
      forgedName.name ≠ forgedMarkdown.name := by
  have hname : len forgedMarkdown.name = 1 := len_literal (by decide)
  have hmarkdown := len_forged.2
  have hsame : promptOf hostedRequest forgedName = promptOf hostedRequest forgedMarkdown := by
    simp only [promptOf, promptText, forgedName, forgedMarkdown, String.append_assoc]
  refine ⟨_, buildPrompt_forgedName, ?_, fun hnames => ?_⟩
  · rw [hsame]
    exact buildPrompt_hosted (by omega) (by omega) (by omega) rfl
  · have hlen := len_forged.1
    rw [hnames, hname] at hlen
    cases hlen

/-- The name of the context holds tags, so that the condition fails. Then either a tag occurs twice
or another context makes the same prompt. -/
theorem boundaries_when_test :
    ¬ ((∀ tag ∈ sectionTags,
        occurrences tag.toList (promptOf hostedRequest forgedName).toList = 1) ∧
      ∀ request' context', context'.contextJson.proper = true →
        buildPrompt request' context' = .ok (promptOf hostedRequest forgedName) →
        request' = hostedRequest ∧ context' = forgedName) := by
  intro hboth
  have hproper : forgedName.contextJson.proper = true := rfl
  have hname : forgedName.name ∈ promptTexts hostedRequest forgedName := by simp [promptTexts]
  have htag : "<context-markdown>".toList <:+: forgedName.name.toList := by
    obtain ⟨-, -, ⟨m, r, hcut⟩, -⟩ := frame_cuts
    rw [forgedName, String.toList_append, String.toList_append, hcut]
    exact ⟨"a".toList ++ m, r ++ "b".toList, by simp only [List.append_assoc]⟩
  exact (boundaries_when hproper buildPrompt_forgedName).mp hboth _ hname _ (by decide) htag

end

end CanonicalApi
