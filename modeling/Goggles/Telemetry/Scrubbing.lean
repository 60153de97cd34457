/-
Module: Goggles.Telemetry.Scrubbing
Purpose: The scrubber of telemetry events does not interfere: events that differ only in what it hides
  come out equal.
Trusted boundary: config/settings.py, `SENSITIVE_EVENT_KEYS` to `scrub_glitchtip_event`.  An event is
  what the telemetry client hands over once it has serialized it, so the keys of its dicts are texts;
  `str.lower` beyond ASCII and the path of `urlsplit` are parameters
Main exports: scrubGlitchtipValue, scrubGlitchtipEvent, SensitiveName, Agree, EventsAgree,
  scrubGlitchtipEvent_eq
-/
import Goggles.Views.Filters

namespace Goggles

/-! ### Sensitive keys -/

/-- `SENSITIVE_EVENT_KEYS`. -/
def SENSITIVE_EVENT_KEYS : List Str :=
  [lit "authorization", lit "cookie", lit "cookies", lit "data", lit "engine_id", lit "group",
    lit "group_ref", lit "http_authorization", lit "ip_address", lit "message_id", lit "msg_id",
    lit "payload", lit "payload_digest", lit "query_string", lit "raw", lit "raw_body",
    lit "raw_line", lit "raw_text", lit "remote_addr", lit "request_body", lit "source_ip",
    lit "token", lit "upload", lit "upload_token", lit "user-agent", lit "user_agent",
    lit "x-forwarded-for", lit "x-goggles-account-label", lit "x-goggles-app-version",
    lit "x-goggles-device-label", lit "x-goggles-group", lit "x-goggles-platform",
    lit "x-real-ip"]

/-- `SENSITIVE_EVENT_KEY_PARTS`. -/
def SENSITIVE_EVENT_KEY_PARTS : List Str :=
  [lit "account_ref", lit "account_label", lit "device_label", lit "device_name", lit "audit",
    lit "authorization", lit "bearer", lit "body", lit "digest", lit "engine_id", lit "group_ref",
    lit "message_id", lit "msg_id", lit "payload", lit "raw", lit "secret", lit "token"]

/-- `SCRUBBED_VALUE`. -/
def SCRUBBED_VALUE : Json := .str (lit "[Filtered]")

/-- `text.replace(old, new)` for single characters. -/
def replaceChar (old new : Nat) (text : Str) : Str :=
  text.map fun char => if char = old then new else char

/-- `str.lower`.  What it does beyond ASCII is left open. -/
structure Lowercase where
  lower : Str → Str
  ascii : ∀ text, (∀ char ∈ text, char < 0x80) → lower text = text.map asciiLower

section Scrub

variable (lowercase : Lowercase)

/-- The test of `_scrub_glitchtip_value` on a key. -/
def isSensitiveKey (key : Str) : Bool :=
  let normalized := replaceChar 0x5f 0x2d (lowercase.lower key)
  let normalizedWithUnderscores := replaceChar 0x2d 0x5f normalized
  SENSITIVE_EVENT_KEYS.contains normalized ||
  SENSITIVE_EVENT_KEYS.contains normalizedWithUnderscores ||
  SENSITIVE_EVENT_KEY_PARTS.any fun part => inText part normalizedWithUnderscores

/-- The test of `scrub_glitchtip_event` on a header. -/
def isSensitiveHeader (key : Str) : Bool :=
  let normalized := lowercase.lower key
  SENSITIVE_EVENT_KEYS.contains normalized || (lit "x-goggles-").isPrefixOf normalized

mutual

/-- `_scrub_glitchtip_value`. -/
def scrubGlitchtipValue : Json → Json
  | .dict fields => .dict (scrubFields fields)
  | .list items => .list (scrubItems items)
  | .null => .null
  | .bool value => .bool value
  | .int value => .int value
  | .float value => .float value
  | .str text => .str text

/-- The comprehension over a list. -/
def scrubItems : List Json → List Json
  | [] => []
  | item :: rest => scrubGlitchtipValue item :: scrubItems rest

/-- The loop over a dict. -/
def scrubFields : List (Str × Json) → List (Str × Json)
  | [] => []
  | (key, child) :: rest =>
      (key, if isSensitiveKey lowercase key then SCRUBBED_VALUE else scrubGlitchtipValue child) ::
        scrubFields rest

end

/-! ### The event -/

/-- A change made in place to a member that is a dict. -/
def changeField (key : Str) (change : Dict → Dict) (field : Str × Json) : Str × Json :=
  match field.2 with
  | .dict inner => if field.1 = key then (field.1, .dict (change inner)) else field
  | _ => field

def changeMember (key : Str) (change : Dict → Dict) (fields : Dict) : Dict :=
  fields.map (changeField key change)

/-- `fields.pop(key, None)` for several keys. -/
def popKeys (keys : List Str) (fields : Dict) : Dict := fields.filter fun field => !keys.contains field.1

/-- The sections of a request that are removed. -/
def removedSections : List Str := [lit "data", lit "cookies", lit "query_string", lit "env"]

/-- The loop over the headers. -/
def scrubHeaders (headers : Dict) : Dict :=
  headers.map fun field =>
    (field.1, if isSensitiveHeader lowercase field.1 then SCRUBBED_VALUE else field.2)

/-- What is done to a request that was scrubbed. -/
def scrubRequest (request : Dict) : Dict :=
  changeMember (lit "headers") (scrubHeaders lowercase) (popKeys removedSections request)

/-- `text.rstrip("/")`. -/
def rstripSlash (text : Str) : Str := (text.reverse.dropWhile (· = 0x2f)).reverse

/-- The URL is an upload's, or does not parse: the event is not sent.  `urlPath` is
`urlsplit(url).path`, which may raise a `ValueError`. -/
def isUploadUrl (urlPath : Str → Option Str) : Json → Bool
  | .str url =>
      match (urlPath url).map rstripSlash with
      | none => true
      | some path => (lit "/api/v1/").isPrefixOf path && (lit "/audit-logs").isSuffixOf path
  | _ => false

/-- The event is of a request that is not reported. -/
def isUploadRequest (urlPath : Str → Option Str) (event : Dict) : Bool :=
  match event.get "request" with
  | .dict request => isUploadUrl urlPath ((request.lookup (lit "url")).getD (.str []))
  | _ => false

/-- `scrub_glitchtip_event`. -/
def scrubGlitchtipEvent (urlPath : Str → Option Str) (event : Dict) : Option Dict :=
  if isUploadRequest urlPath event then none
  else some (changeMember (lit "user") (popKeys [lit "ip_address"])
    (changeMember (lit "request") (scrubRequest lowercase) (scrubFields lowercase event)))

end Scrub

/-! ### Events that differ only in what is hidden -/

section Agreement

variable (lowercase : Lowercase)

/-- A name in one case, with one spelling of the dash. -/
def spelling (name : Str) : Str := replaceChar 0x2d 0x5f (lowercase.lower name)

/-- A name that is sensitive: in any letter case and with either dash it is one of the listed names, or
it contains a sensitive part. -/
def SensitiveName (name : Str) : Prop :=
  (∃ listed ∈ SENSITIVE_EVENT_KEYS, spelling lowercase name = replaceChar 0x2d 0x5f listed) ∨
  ∃ part ∈ SENSITIVE_EVENT_KEY_PARTS, part <:+: spelling lowercase name

/-- A header of the service's own. -/
def GogglesHeader (name : Str) : Prop := lit "x-goggles-" <+: lowercase.lower name

mutual

/-- Two values that differ at most in what is stored under sensitive keys, at any depth. -/
inductive Agree : Json → Json → Prop where
  | same (value : Json) : Agree value value
  | list {left right : List Json} (items : AgreeItems left right) : Agree (.list left) (.list right)
  | dict {left right : Dict} (fields : AgreeFields left right) : Agree (.dict left) (.dict right)

/-- Two lists of such values. -/
inductive AgreeItems : List Json → List Json → Prop where
  | nil : AgreeItems [] []
  | cons {left right : Json} {lefts rights : List Json} (head : Agree left right)
      (tail : AgreeItems lefts rights) : AgreeItems (left :: lefts) (right :: rights)

/-- Two dicts of such values. -/
inductive AgreeFields : List (Str × Json) → List (Str × Json) → Prop where
  | nil : AgreeFields [] []
  | hidden {key : Str} {left right : Json} {lefts rights : List (Str × Json)}
      (sensitive : SensitiveName lowercase key) (tail : AgreeFields lefts rights) :
      AgreeFields ((key, left) :: lefts) ((key, right) :: rights)
  | shown {key : Str} {left right : Json} {lefts rights : List (Str × Json)}
      (head : Agree left right) (tail : AgreeFields lefts rights) :
      AgreeFields ((key, left) :: lefts) ((key, right) :: rights)

end

/-- Two dicts with the same keys, whose children are related unless their key is sensitive. -/
def FieldsAgree (child : Str → Json → Json → Prop) : Dict → Dict → Prop :=
  List.Forall₂ fun left right =>
    left.1 = right.1 ∧ (SensitiveName lowercase left.1 ∨ child left.1 left.2 right.2)

/-- Two headers sections. -/
def HeadersAgree (left right : Json) : Prop :=
  Agree lowercase left right ∨ ∃ first second, left = .dict first ∧ right = .dict second ∧
    FieldsAgree lowercase (fun key left right => GogglesHeader lowercase key ∨ Agree lowercase left right)
      first second

/-- Two requests, whatever their sections that are removed. -/
def RequestsAgree (left right : Json) : Prop :=
  Agree lowercase left right ∨ ∃ first second, left = .dict first ∧ right = .dict second ∧
    FieldsAgree lowercase (fun key left right =>
      if key = lit "headers" then HeadersAgree lowercase left right else Agree lowercase left right)
      (popKeys removedSections first) (popKeys removedSections second)

/-- Two users, whatever their addresses. -/
def UsersAgree (left right : Json) : Prop :=
  Agree lowercase left right ∨ ∃ first second, left = .dict first ∧ right = .dict second ∧
    FieldsAgree lowercase (fun _ => Agree lowercase) (popKeys [lit "ip_address"] first)
      (popKeys [lit "ip_address"] second)

/-- Two events that differ at most in what the scrubber is there to hide. -/
def EventsAgree : Dict → Dict → Prop :=
  FieldsAgree lowercase fun key left right =>
    if key = lit "request" then RequestsAgree lowercase left right
    else if key = lit "user" then UsersAgree lowercase left right
    else Agree lowercase left right

end Agreement

/-! ### What is sensitive is found -/

section Sensitive

variable {lowercase : Lowercase}

/-- Each listed name keeps to one of the dashes. -/
theorem one_dash : ∀ name ∈ SENSITIVE_EVENT_KEYS,
    replaceChar 0x2d 0x5f name = name ∨ replaceChar 0x5f 0x2d (replaceChar 0x2d 0x5f name) = name := by
  decide +kernel

theorem replaceChar_dashes (text : Str) :
    replaceChar 0x2d 0x5f (replaceChar 0x5f 0x2d text) = replaceChar 0x2d 0x5f text ∧
      replaceChar 0x5f 0x2d (replaceChar 0x2d 0x5f text) = replaceChar 0x5f 0x2d text := by
  simp only [replaceChar, List.map_map]
  constructor <;>
    · refine List.map_congr_left fun char _ => ?_
      simp only [Function.comp_apply]
      split_ifs <;> simp_all

/-- `part in text` is that the part is an infix. -/
theorem inText_iff {part text : Str} : inText part text = true ↔ part <:+: text := by
  rw [inText, List.any_eq_true, List.infix_iff_prefix_suffix]
  simp only [List.mem_tails, List.isPrefixOf_iff_prefix]
  constructor
  · rintro ⟨tail, suffix, isPrefix⟩
    exact ⟨tail, isPrefix, suffix⟩
  · rintro ⟨tail, isPrefix, suffix⟩
    exact ⟨tail, suffix, isPrefix⟩

/-- The test finds every sensitive name, whatever its case and its dashes, and no other. -/
theorem isSensitiveKey_iff {key : Str} :
    isSensitiveKey lowercase key = true ↔ SensitiveName lowercase key := by
  rw [isSensitiveKey, SensitiveName, Bool.or_eq_true, Bool.or_eq_true, List.contains_iff_mem,
    List.contains_iff_mem, List.any_eq_true, (replaceChar_dashes _).1]
  simp only [inText_iff]
  refine or_congr_left ?_
  constructor
  · rintro (dashed | underscored)
    · exact ⟨_, dashed, (replaceChar_dashes _).1.symm⟩
    · refine ⟨_, underscored, ?_⟩
      simp only [spelling, replaceChar, List.map_map]
      refine List.map_congr_left fun char _ => ?_
      simp only [Function.comp_apply]
      split_ifs <;> simp_all
  · rintro ⟨listed, member, same⟩
    rcases one_dash listed member with underscored | dashed
    · rw [underscored] at same
      exact .inr (show spelling lowercase key ∈ SENSITIVE_EVENT_KEYS from same.symm ▸ member)
    · rw [← same, spelling, (replaceChar_dashes _).2] at dashed
      exact .inl (dashed ▸ member)

theorem lower_ascii {text : Str} (ascii : ∀ char ∈ text, char < 0x80)
    (lowered : text.map asciiLower = text) : lowercase.lower text = text :=
  (lowercase.ascii text ascii).trans lowered

/-- The keys that lead to the URL of a request are not sensitive. -/
theorem not_sensitive_request : ¬ SensitiveName lowercase (lit "request") := by
  rw [← isSensitiveKey_iff, isSensitiveKey, lower_ascii (by decide) (by decide)]
  decide +kernel

theorem not_sensitive_url : ¬ SensitiveName lowercase (lit "url") := by
  rw [← isSensitiveKey_iff, isSensitiveKey, lower_ascii (by decide) (by decide)]
  decide +kernel

end Sensitive

/-! ### Scrubbing what agrees -/

section Scrubbed

variable {lowercase : Lowercase}

mutual

/-- Values that agree are scrubbed to one value. -/
theorem Agree.scrub_eq {left right : Json} : Agree lowercase left right →
    scrubGlitchtipValue lowercase left = scrubGlitchtipValue lowercase right
  | .same _ => rfl
  | .list items => by rw [scrubGlitchtipValue, scrubGlitchtipValue, items.scrub_eq]
  | .dict fields => by rw [scrubGlitchtipValue, scrubGlitchtipValue, fields.scrub_eq]

theorem AgreeItems.scrub_eq {left right : List Json} : AgreeItems lowercase left right →
    scrubItems lowercase left = scrubItems lowercase right
  | .nil => rfl
  | .cons head tail => by rw [scrubItems, scrubItems, head.scrub_eq, tail.scrub_eq]

theorem AgreeFields.scrub_eq {left right : List (Str × Json)} : AgreeFields lowercase left right →
    scrubFields lowercase left = scrubFields lowercase right
  | .nil => rfl
  | .hidden sensitive tail => by
      rw [scrubFields, scrubFields, if_pos (isSensitiveKey_iff.mpr sensitive),
        if_pos (isSensitiveKey_iff.mpr sensitive), tail.scrub_eq]
  | .shown head tail => by rw [scrubFields, scrubFields, head.scrub_eq, tail.scrub_eq]

end

theorem AgreeFields.fieldsAgree {left right : Dict} : AgreeFields lowercase left right →
    FieldsAgree lowercase (fun _ => Agree lowercase) left right
  | .nil => .nil
  | .hidden sensitive tail => .cons ⟨rfl, .inl sensitive⟩ tail.fieldsAgree
  | .shown head tail => .cons ⟨rfl, .inr head⟩ tail.fieldsAgree

/-- What the loop over a dict makes of one field. -/
def scrubField (lowercase : Lowercase) (field : Str × Json) : Str × Json :=
  (field.1, if isSensitiveKey lowercase field.1 then SCRUBBED_VALUE
    else scrubGlitchtipValue lowercase field.2)

theorem scrubFields_eq_map (fields : Dict) :
    scrubFields lowercase fields = fields.map (scrubField lowercase) := by
  induction fields with
  | nil => rfl
  | cons field rest inductionHypothesis =>
      rw [scrubFields, inductionHypothesis]
      rfl

theorem popKeys_scrubFields (keys : List Str) (fields : Dict) :
    popKeys keys (scrubFields lowercase fields) = scrubFields lowercase (popKeys keys fields) := by
  rw [scrubFields_eq_map, scrubFields_eq_map, popKeys, List.filter_map]
  rfl

/-- A change of each scrubbed field that makes related children equal makes the dicts equal. -/
theorem FieldsAgree.map_eq {child : Str → Json → Json → Prop} {left right : Dict}
    (agree : FieldsAgree lowercase child left right) {change : Str × Json → Str × Json}
    (same : ∀ key first second, child key first second →
      change (scrubField lowercase (key, first)) = change (scrubField lowercase (key, second))) :
    (scrubFields lowercase left).map change = (scrubFields lowercase right).map change := by
  rw [scrubFields_eq_map, scrubFields_eq_map]
  induction agree with
  | nil => rfl
  | @cons field other lefts rights head tail inductionHypothesis =>
      obtain ⟨key, first⟩ := field
      obtain ⟨_, second⟩ := other
      obtain ⟨rfl, sensitive | related⟩ := head
      · have hidden : scrubField lowercase (key, first) = scrubField lowercase (key, second) := by
          rw [scrubField, scrubField, if_pos (isSensitiveKey_iff.mpr sensitive),
            if_pos (isSensitiveKey_iff.mpr sensitive)]
        simp only [List.map_cons, inductionHypothesis, hidden]
      · simp only [List.map_cons, inductionHypothesis, same key first second related]

theorem scrubField_eq {left right : Json} (agree : Agree lowercase left right) (key : Str) :
    scrubField lowercase (key, left) = scrubField lowercase (key, right) := by
  rw [scrubField, scrubField, agree.scrub_eq]

theorem changeField_dict (key : Str) (change : Dict → Dict) (inner : Dict) :
    changeField key change (key, .dict inner) = (key, .dict (change inner)) :=
  if_pos rfl

/-- A change of a member that makes its scrubbed dicts equal. -/
theorem changeField_scrubField {first second : Dict} {change : Dict → Dict} {key : Str}
    (same : change (scrubFields lowercase first) = change (scrubFields lowercase second)) :
    changeField key change (scrubField lowercase (key, .dict first)) =
      changeField key change (scrubField lowercase (key, .dict second)) := by
  rw [scrubField, scrubField, scrubGlitchtipValue, scrubGlitchtipValue]
  split
  · rfl
  · rw [changeField_dict, changeField_dict, same]

theorem changeField_of_ne {key name : Str} (other : name ≠ key) (change : Dict → Dict)
    (value : Json) : changeField key change (name, value) = (name, value) := by
  unfold changeField
  split
  · exact if_neg other
  · rfl

theorem HeadersAgree.scrub_eq {left right : Json} (agree : HeadersAgree lowercase left right) :
    changeField (lit "headers") (scrubHeaders lowercase)
        (scrubField lowercase (lit "headers", left)) =
      changeField (lit "headers") (scrubHeaders lowercase)
        (scrubField lowercase (lit "headers", right)) := by
  obtain agree | ⟨first, second, rfl, rfl, fields⟩ := agree
  · rw [scrubField_eq agree]
  · apply changeField_scrubField
    apply fields.map_eq
    rintro key first second (header | agree)
    · have sensitive : isSensitiveHeader lowercase key = true := by
        rw [isSensitiveHeader, Bool.or_eq_true, List.isPrefixOf_iff_prefix]
        exact .inr header
      simp only [scrubField, sensitive, if_true]
    · rw [scrubField_eq agree]

theorem RequestsAgree.scrub_eq {left right : Json} (agree : RequestsAgree lowercase left right) :
    changeField (lit "request") (scrubRequest lowercase)
        (scrubField lowercase (lit "request", left)) =
      changeField (lit "request") (scrubRequest lowercase)
        (scrubField lowercase (lit "request", right)) := by
  obtain agree | ⟨first, second, rfl, rfl, fields⟩ := agree
  · rw [scrubField_eq agree]
  · apply changeField_scrubField
    rw [scrubRequest, scrubRequest, popKeys_scrubFields, popKeys_scrubFields]
    apply fields.map_eq
    intro key first second related
    split at related
    · next isHeaders =>
        subst isHeaders
        exact HeadersAgree.scrub_eq related
    · rw [scrubField_eq related]

theorem UsersAgree.scrub_eq {left right : Json} (agree : UsersAgree lowercase left right) :
    changeField (lit "user") (popKeys [lit "ip_address"])
        (scrubField lowercase (lit "user", left)) =
      changeField (lit "user") (popKeys [lit "ip_address"])
        (scrubField lowercase (lit "user", right)) := by
  obtain agree | ⟨first, second, rfl, rfl, fields⟩ := agree
  · rw [scrubField_eq agree]
  · apply changeField_scrubField
    rw [popKeys_scrubFields, popKeys_scrubFields]
    have same : (scrubFields lowercase _).map id = (scrubFields lowercase _).map id :=
      fields.map_eq fun key first second related => scrubField_eq related key
    rwa [List.map_id, List.map_id] at same

/-! ### The event is dropped or sent alike -/

/-- What a key that is not sensitive leads to. -/
theorem FieldsAgree.lookup {child : Str → Json → Json → Prop} {left right : Dict}
    (agree : FieldsAgree lowercase child left right) {name : Str}
    (plain : ¬ SensitiveName lowercase name) :
    Option.Rel (child name) (left.lookup name) (right.lookup name) := by
  induction agree with
  | nil => exact .none
  | @cons field other lefts rights head tail inductionHypothesis =>
      obtain ⟨key, first⟩ := field
      obtain ⟨_, second⟩ := other
      obtain ⟨rfl, related⟩ := head
      rw [lookup_cons_ite, lookup_cons_ite]
      split
      · next same =>
          subst same
          exact .some (related.resolve_left plain)
      · exact inductionHypothesis

theorem lookup_popKeys {keys : List Str} {name : Str} (kept : name ∉ keys) (fields : Dict) :
    (popKeys keys fields).lookup name = fields.lookup name := by
  induction fields with
  | nil => rfl
  | cons field rest inductionHypothesis =>
      obtain ⟨key, value⟩ := field
      rw [popKeys, List.filter_cons]
      split
      · rw [lookup_cons_ite, lookup_cons_ite, ← inductionHypothesis, popKeys]
      · next popped =>
          have other : name ≠ key := by
            rintro rfl
            simp [kept] at popped
          rw [lookup_cons_ite, if_neg other, ← inductionHypothesis, popKeys]

theorem isUploadUrl_eq {left right : Option Json} (agree : Option.Rel (Agree lowercase) left right)
    (urlPath : Str → Option Str) :
    isUploadUrl urlPath (left.getD (.str [])) = isUploadUrl urlPath (right.getD (.str [])) := by
  cases agree with
  | none => rfl
  | some agree =>
      cases agree with
      | same => rfl
      | list | dict => rfl

theorem isUploadRequest_eq {left right : Dict} (agree : EventsAgree lowercase left right)
    (urlPath : Str → Option Str) : isUploadRequest urlPath left = isUploadRequest urlPath right := by
  have url : lit "url" ∉ removedSections := by decide +kernel
  have found := agree.lookup not_sensitive_request
  rw [isUploadRequest, isUploadRequest, Dict.get, Dict.get]
  generalize left.lookup (lit "request") = leftRequest at found ⊢
  generalize right.lookup (lit "request") = rightRequest at found ⊢
  cases found with
  | none => rfl
  | some related =>
      rw [if_pos rfl] at related
      obtain agree | ⟨first, second, rfl, rfl, fields⟩ := related
      · cases agree with
        | same => rfl
        | list => rfl
        | dict fields => exact isUploadUrl_eq (fields.fieldsAgree.lookup not_sensitive_url) urlPath
      · apply isUploadUrl_eq
        have found := fields.lookup not_sensitive_url
        rw [lookup_popKeys url, lookup_popKeys url] at found
        exact found

end Scrubbed

/-- Events that differ only in what the scrubber is there to hide are scrubbed to equal results. -/
theorem scrubGlitchtipEvent_eq (lowercase : Lowercase) (urlPath : Str → Option Str)
    (left right : Dict) (agree : EventsAgree lowercase left right) :
    scrubGlitchtipEvent lowercase urlPath left = scrubGlitchtipEvent lowercase urlPath right := by
  have members : changeMember (lit "user") (popKeys [lit "ip_address"])
        (changeMember (lit "request") (scrubRequest lowercase) (scrubFields lowercase left)) =
      changeMember (lit "user") (popKeys [lit "ip_address"])
        (changeMember (lit "request") (scrubRequest lowercase) (scrubFields lowercase right)) := by
    rw [changeMember, changeMember, changeMember, changeMember, List.map_map, List.map_map]
    apply agree.map_eq
    intro key first second related
    rw [Function.comp_apply, Function.comp_apply]
    split at related
    · next isRequest =>
        subst isRequest
        rw [related.scrub_eq]
    split at related
    · next notRequest isUser =>
        subst isUser
        have unchanged : ∀ value, changeField (lit "request") (scrubRequest lowercase)
            (scrubField lowercase (lit "user", value)) = scrubField lowercase (lit "user", value) :=
          fun value => changeField_of_ne notRequest _ _
        rw [unchanged, unchanged, related.scrub_eq]
    · rw [scrubField_eq related]
  rw [scrubGlitchtipEvent, scrubGlitchtipEvent, isUploadRequest_eq agree, members]

/-- `str.lower` where no text goes beyond ASCII. -/
def asciiLowercase : Lowercase := ⟨List.map asciiLower, fun _ _ => rfl⟩

/-- An event that carries a secret in a removed section, in a header, under a sensitive key in a list
and as an address. -/
def secretEvent (secret : Json) : Dict :=
  [(lit "request", .dict
      [(lit "env", .dict [(lit "REMOTE", secret)]), (lit "url", .str (lit "/groups/")),
        (lit "headers", .dict [(lit "X-Goggles-Build", secret), (lit "Accept", .str (lit "*/*"))])]),
    (lit "extra", .list [.dict [(lit "Upload-Token", secret)], .int 1]),
    (lit "user", .dict [(lit "ip_address", secret), (lit "id", .int 7)])]

theorem secretEvent_agrees (first second : Json) :
    EventsAgree asciiLowercase (secretEvent first) (secretEvent second) := by
  have header : GogglesHeader asciiLowercase (lit "X-Goggles-Build") := by
    rw [GogglesHeader, ← List.isPrefixOf_iff_prefix]
    decide +kernel
  have token : SensitiveName asciiLowercase (lit "Upload-Token") := by
    rw [← isSensitiveKey_iff]
    decide +kernel
  have url : lit "url" ≠ lit "headers" := by decide +kernel
  have extra : lit "extra" ≠ lit "request" ∧ lit "extra" ≠ lit "user" := by decide +kernel
  have user : lit "user" ≠ lit "request" := by decide +kernel
  refine .cons ⟨rfl, .inr ?_⟩ (.cons ⟨rfl, .inr ?_⟩ (.cons ⟨rfl, .inr ?_⟩ .nil))
  · dsimp only
    rw [if_pos rfl]
    refine .inr ⟨_, _, rfl, rfl, .cons ⟨rfl, .inr ?_⟩ (.cons ⟨rfl, .inr ?_⟩ .nil)⟩
    · dsimp only
      rw [if_neg url]
      exact .same _
    · dsimp only
      rw [if_pos rfl]
      exact .inr ⟨_, _, rfl, rfl, .cons ⟨rfl, .inr (.inl header)⟩
        (.cons ⟨rfl, .inr (.inr (.same _))⟩ .nil)⟩
  · dsimp only
    rw [if_neg extra.1, if_neg extra.2]
    exact .list (.cons (.dict (.hidden token .nil)) (.cons (.same _) .nil))
  · dsimp only
    rw [if_neg user, if_pos rfl]
    exact .inr ⟨_, _, rfl, rfl, .cons ⟨rfl, .inr (.same _)⟩ .nil⟩

theorem scrubGlitchtipEvent_secretEvent :
    scrubGlitchtipEvent asciiLowercase some (secretEvent (.str (lit "one"))) =
      scrubGlitchtipEvent asciiLowercase some (secretEvent (.list [.int 2])) :=
  scrubGlitchtipEvent_eq asciiLowercase some _ _ (secretEvent_agrees _ _)

end Goggles
