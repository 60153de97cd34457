/-
Module: Goggles.Store.GroupIdentity
Purpose: Which references the rows of the group table stand for, over any sequence of uploads, and
  when two references share a row: a slug keeps no letter case, and the digest that would tell the
  references apart is only added to long ones.
Trusted boundary: `slugify` lower-cases hexadecimal text; digests of distinct references differ in
  their first half
Main exports: Registers, registers_resolveGroupKeys, AcceptedRef, ResolvesTo, IdentityInjective,
  identityInjective_iff
-/
import Goggles.Store.Deduplication

namespace Goggles

/-! ### The references in a group table -/

/-- What the references resolved so far have left in the group table. -/
structure Registers (env : Env) (groups : List AuditGroup) (resolved : Str → Prop) : Prop where
  slugs : (groups.map (·.slug)).Nodup
  origin : ∀ group ∈ groups, group.groupRef ≠ [] →
    resolved group.groupRef ∧ group.slug = groupSlugForRef env group.groupRef
  known : ∀ groupRef, resolved groupRef →
    ∃ group ∈ groups, group.slug = groupSlugForRef env groupRef ∧ group.groupRef ≠ []

namespace Registers

variable {env : Env} {groups : List AuditGroup} {resolved : Str → Prop}

theorem empty (env : Env) : Registers env [] (fun _ => False) where
  slugs := List.nodup_nil
  origin := by simp
  known := by simp

theorem congr (registers : Registers env groups resolved) {others : Str → Prop}
    (same : ∀ groupRef, others groupRef ↔ resolved groupRef) : Registers env groups others := by
  have equal : others = resolved := funext fun groupRef => propext (same groupRef)
  exact equal ▸ registers

/-- Rows with one slug are one row. -/
theorem eq_of_slug (registers : Registers env groups resolved) {left right : AuditGroup}
    (leftMember : left ∈ groups) (rightMember : right ∈ groups) (same : left.slug = right.slug) :
    left = right :=
  List.inj_on_of_nodup_map registers.slugs leftMember rightMember same

/-- A resolved reference stands for the one row with its slug. -/
theorem groupIdOfKey_ref (registers : Registers env groups resolved) {groupRef : Str}
    (isNamed : groupRef ≠ []) {group : AuditGroup} (member : group ∈ groups)
    (slug : group.slug = groupSlugForRef env groupRef) :
    groupIdOfKey env groups (.ref groupRef) = some group.id := by
  cases byRef : groups.find? (·.groupRef = groupRef) with
  | some found =>
      have foundMember := List.mem_of_find?_eq_some byRef
      have foundRef : found.groupRef = groupRef := by simpa using List.find?_some byRef
      have foundSlug := (registers.origin found foundMember (foundRef ▸ isNamed)).2
      have same := registers.eq_of_slug foundMember member (by rw [foundSlug, foundRef, slug])
      simp [groupIdOfKey, byRef, same]
  | none =>
      cases bySlug : groups.find? (·.slug = groupSlugForRef env groupRef) with
      | none =>
          have missed := List.find?_eq_none.mp bySlug group member
          simp [slug] at missed
      | some found =>
          have foundSlug : found.slug = groupSlugForRef env groupRef := by
            simpa using List.find?_some bySlug
          have same := registers.eq_of_slug (List.mem_of_find?_eq_some bySlug) member
            (foundSlug.trans slug.symm)
          simp [groupIdOfKey, byRef, bySlug, same]

/-- A row under a slug that no row has. -/
theorem nodup_slugs_create (registers : Registers env groups resolved) {group : AuditGroup}
    (absent : groups.find? (·.slug = group.slug) = none) :
    ((groups ++ [group]).map (·.slug)).Nodup := by
  rw [List.map_append, List.map_singleton]
  refine List.nodup_append.mpr ⟨registers.slugs, List.nodup_singleton _, ?_⟩
  intro left leftMember right rightMember same
  obtain ⟨other, member, rfl⟩ := List.mem_map.mp leftMember
  rw [List.mem_singleton.mp rightMember] at same
  exact List.find?_eq_none.mp absent other member (by simpa using same)

/-- A new row for a reference, under its own slug. -/
theorem createRef (registers : Registers env groups resolved) {groupRef : Str}
    (isNamed : groupRef ≠ []) (groupId : Nat) (name : Str)
    (absent : groups.find? (·.slug = groupSlugForRef env groupRef) = none) :
    Registers env (groups ++ [⟨groupId, name, groupSlugForRef env groupRef, groupRef, 0⟩])
      (fun other => resolved other ∨ other = groupRef) where
  slugs := registers.nodup_slugs_create absent
  origin := by
    intro group member named
    rcases List.mem_append.mp member with old | new
    · obtain ⟨before, slug⟩ := registers.origin group old named
      exact ⟨.inl before, slug⟩
    · rw [List.mem_singleton.mp new]
      exact ⟨.inr rfl, rfl⟩
  known := by
    rintro other (before | rfl)
    · obtain ⟨group, member, found⟩ := registers.known other before
      exact ⟨group, List.mem_append_left _ member, found⟩
    · exact ⟨_, List.mem_append_right _ (List.mem_singleton.mpr rfl), rfl, isNamed⟩

/-- A new row for a fallback slug. -/
theorem createSlug (registers : Registers env groups resolved) (groupId : Nat) (name : Str)
    {slug : Str} (absent : groups.find? (·.slug = slug) = none) :
    Registers env (groups ++ [⟨groupId, name, slug, [], 0⟩]) resolved where
  slugs := registers.nodup_slugs_create absent
  origin := by
    intro group member named
    rcases List.mem_append.mp member with old | new
    · exact registers.origin group old named
    · rw [List.mem_singleton.mp new] at named
      exact absurd rfl named
  known := by
    intro other before
    obtain ⟨group, member, found⟩ := registers.known other before
    exact ⟨group, List.mem_append_left _ member, found⟩

/-- A row without a reference adopts the one its slug belongs to. -/
theorem adopt (registers : Registers env groups resolved) (ids : (groups.map (·.id)).Nodup)
    {groupRef : Str} (isNamed : groupRef ≠ []) {found : AuditGroup} (member : found ∈ groups)
    (slug : found.slug = groupSlugForRef env groupRef) (blank : found.groupRef = []) :
    Registers env (setGroupRef groups found.id groupRef)
      (fun other => resolved other ∨ other = groupRef) where
  slugs := by
    have sameSlugs : (setGroupRef groups found.id groupRef).map (·.slug) =
        groups.map (·.slug) := by
      rw [setGroupRef, List.map_map]
      refine List.map_congr_left fun group _ => ?_
      simp only [Function.comp_apply]
      split <;> rfl
    exact sameSlugs ▸ registers.slugs
  origin := by
    intro group groupMember named
    obtain ⟨old, oldMember, rfl⟩ := List.mem_map.mp groupMember
    by_cases here : old.id = found.id
    · have same := List.inj_on_of_nodup_map ids oldMember member here
      simp only [same]
      exact ⟨.inr rfl, slug⟩
    · simp only [if_neg here] at named ⊢
      obtain ⟨before, oldSlug⟩ := registers.origin old oldMember named
      exact ⟨.inl before, oldSlug⟩
  known := by
    rintro other (before | rfl)
    · obtain ⟨old, oldMember, oldSlug, named⟩ := registers.known other before
      have apart : old.id ≠ found.id := by
        intro here
        exact named (List.inj_on_of_nodup_map ids oldMember member here ▸ blank)
      refine ⟨old, List.mem_map.mpr ⟨old, oldMember, ?_⟩, oldSlug, named⟩
      simp [apart]
    · refine ⟨{ found with groupRef := other }, List.mem_map.mpr ⟨found, member, ?_⟩, slug, isNamed⟩
      simp

/-- A reference that finds its row changes nothing. -/
theorem again (registers : Registers env groups resolved) {groupRef : Str} {found : AuditGroup}
    (member : found ∈ groups) (slug : found.slug = groupSlugForRef env groupRef)
    (named : found.groupRef ≠ []) :
    Registers env groups (fun other => resolved other ∨ other = groupRef) where
  slugs := registers.slugs
  origin := by
    intro group groupMember groupNamed
    obtain ⟨before, groupSlug⟩ := registers.origin group groupMember groupNamed
    exact ⟨.inl before, groupSlug⟩
  known := by
    rintro other (before | rfl)
    · exact registers.known other before
    · exact ⟨found, member, slug, named⟩

end Registers

/-! ### Resolving keys -/

section Resolve

variable {env : Env} {table : GroupTable} {resolved : Str → Prop}

theorem registers_groupForRef (formed : table.WellFormed)
    (registers : Registers env table.groups resolved) {groupRef : Str} (isNamed : groupRef ≠ []) :
    Registers env (groupForRef env table groupRef).1.groups
      (fun other => resolved other ∨ other = groupRef) := by
  unfold groupForRef
  cases byRef : table.groups.find? (·.groupRef = groupRef) with
  | some existing =>
      have member := List.mem_of_find?_eq_some byRef
      have sameRef : existing.groupRef = groupRef := by simpa using List.find?_some byRef
      have named : existing.groupRef ≠ [] := sameRef ▸ isNamed
      exact registers.again member (sameRef ▸ (registers.origin existing member named).2) named
  | none =>
      simp only
      cases bySlug : table.groups.find? (·.slug = groupSlugForRef env groupRef) with
      | none => exact registers.createRef isNamed _ _ bySlug
      | some found =>
          have member := List.mem_of_find?_eq_some bySlug
          have slug : found.slug = groupSlugForRef env groupRef := by
            simpa using List.find?_some bySlug
          simp only
          split
          · next blank => exact registers.adopt formed.ids isNamed member slug blank
          · next named => exact registers.again member slug named

theorem registers_groupForSlug (registers : Registers env table.groups resolved)
    (fallbackGroupName slug : Str) :
    Registers env (groupForSlug env fallbackGroupName table slug).1.groups resolved := by
  unfold groupForSlug
  cases bySlug : table.groups.find? (·.slug = slug) with
  | some found => exact registers
  | none => exact registers.createSlug _ _ bySlug

/-- The keys of an upload, one after the other. -/
theorem registers_resolveGroupKeys (formed : table.WellFormed)
    (registers : Registers env table.groups resolved) (fallbackGroupName : Str)
    {keys : List GroupKey} (named : ∀ key ∈ keys, key.isNamed) :
    Registers env (resolveGroupKeys env fallbackGroupName table keys).1.groups
      (fun groupRef => resolved groupRef ∨ .ref groupRef ∈ keys) := by
  induction keys generalizing table resolved with
  | nil =>
      apply registers.congr
      simp
  | cons key rest inductionHypothesis =>
      have restNamed : ∀ other ∈ rest, other.isNamed := fun other member =>
        named other (List.mem_cons_of_mem key member)
      have keyNamed := named key List.mem_cons_self
      have nextFormed := (groupForKey_resolved env formed fallbackGroupName key).formed
      rw [resolveGroupKeys]
      cases key with
      | ref value =>
          have first := registers_groupForRef formed registers keyNamed
          apply (inductionHypothesis nextFormed first restNamed).congr
          intro groupRef
          simp [or_assoc]
      | slug value =>
          have first := registers_groupForSlug registers fallbackGroupName value
          apply (inductionHypothesis nextFormed first restNamed).congr
          intro groupRef
          simp

end Resolve

/-- The counts are no part of what a group is known by. -/
theorem Registers.refreshGroupRollups {env : Env} {groups : List AuditGroup}
    {resolved : Str → Prop} (registers : Registers env groups resolved) (events : List AuditEvent)
    (groupIds : List Nat) :
    Registers env (refreshGroupRollups groups events groupIds) resolved where
  slugs := by
    have sameSlugs : (Goggles.refreshGroupRollups groups events groupIds).map (·.slug) =
        groups.map (·.slug) := by
      rw [Goggles.refreshGroupRollups, List.map_map]
      refine List.map_congr_left fun group _ => ?_
      simp only [Function.comp_apply]
      split <;> rfl
    exact sameSlugs ▸ registers.slugs
  origin := by
    intro group member
    obtain ⟨old, oldMember, rfl⟩ := List.mem_map.mp member
    split
    · exact registers.origin old oldMember
    · exact registers.origin old oldMember
  known := by
    intro groupRef before
    obtain ⟨group, member, found⟩ := registers.known groupRef before
    refine ⟨_, List.mem_map_of_mem member, ?_⟩
    split
    · exact found
    · exact found

/-! ### Declared references -/

/-- What a line says about its group; null when it says nothing. -/
def ParsedLine.declaredGroupRef (parsed : ParsedLine) : Json :=
  match parsed.data with
  | some data => data.get "group_ref"
  | none => .null

/-- The normalizer keeps the declared text of an accepted line. -/
theorem AcceptedLine.text_groupRef {line : ParsedLine} (accepted : AcceptedLine line) :
    line.text "group_ref" = valueIfStr line.declaredGroupRef := by
  obtain ⟨data, found, clean, normalized⟩ := accepted.source
  obtain ⟨kind, kindType, variant, classified, fits⟩ := classified_of_clean clean
  have envelope : lit "group_ref" ∈ envelopeFields := by decide +kernel
  rw [ParsedLine.text, normalized, normalizeEvent_get_envelope classified fits envelope,
    ParsedLine.declaredGroupRef, found]
  rfl

/-- An accepted line declares nothing, or a text the pattern of the schema finds, within the storage
limit. -/
theorem AcceptedLine.declaredGroupRef_cases {line : ParsedLine} (accepted : AcceptedLine line) :
    line.declaredGroupRef = .null ∨ ∃ groupRef, line.declaredGroupRef = .str groupRef ∧
      HexPattern.oneOrMore.search groupRef = true ∧ groupRef.length ≤ groupRefMaxLength := by
  obtain ⟨data, found, clean, -⟩ := accepted.source
  obtain ⟨kind, kindType, variant, classified, fits⟩ := classified_of_clean clean
  have declared : line.declaredGroupRef = data.get "group_ref" := by
    simp only [ParsedLine.declaredGroupRef, found]
  rw [declared]
  cases present : data.lookup (lit "group_ref") with
  | none => exact .inl (by rw [Dict.get, present]; rfl)
  | some value =>
      have valid := Schema.valid_property classified.valid (lit "group_ref") hexString (by simp) present
      obtain ⟨groupRef, rfl, matched⟩ := Schema.eq_str_of_valid_pattern valid
      have read : data.get "group_ref" = .str groupRef := by rw [Dict.get, present]; rfl
      have fitting := fits.groupRef
      rw [read] at fitting
      exact .inr ⟨groupRef, read, matched, fitting⟩

/-- The key of an accepted line, from what it declares. -/
theorem AcceptedLine.key_eq_ref_iff {line : ParsedLine} (accepted : AcceptedLine line)
    (fallbackGroupSlug : Option Str) {groupRef : Str} :
    groupKeyForParsedLine fallbackGroupSlug line = some (.ref groupRef) ↔
      line.declaredGroupRef = .str groupRef ∧ validGroupRef (.str groupRef) = true := by
  have text := accepted.text_groupRef
  constructor
  · intro found
    simp only [groupKeyForParsedLine] at found
    split_ifs at found with valid declared
    · cases found
      rw [text] at valid ⊢
      rcases accepted.declaredGroupRef_cases with absent | ⟨other, same, -⟩
      · rw [absent] at valid
        simp [validGroupRef, isHex, hexFullmatch, valueIfStr] at valid
      · rw [same] at valid ⊢
        exact ⟨rfl, valid⟩
    · split at found <;> simp at found
  · rintro ⟨declared, valid⟩
    have kept : line.text "group_ref" = groupRef := by rw [text, declared]; rfl
    simp only [groupKeyForParsedLine, kept, valid, if_true]

/-! ### Slugs -/

theorem asciiLower_ne_dash {char : Nat} (digit : isHexDigit char = true) :
    asciiLower char ≠ 0x2d := by
  simp only [isHexDigit, Bool.or_eq_true, Bool.and_eq_true, decide_eq_true_eq] at digit
  unfold asciiLower
  split <;> omega

/-- What precedes the first dash of a text. -/
theorem takeWhile_dash {body rest : Str} (plain : ∀ char ∈ body, char ≠ 0x2d) :
    (body ++ 0x2d :: rest).takeWhile (· != 0x2d) = body := by
  rw [List.takeWhile_append_of_pos (by simpa using plain), List.takeWhile_cons_of_neg (by simp),
    List.append_nil]

section Slugs

variable {env : Env} {left right : Str}

/-- The slug of a hexadecimal reference: the text in lower case, cut and marked with a digest when it
is long. -/
theorem groupSlugForRef_hex
    (slugifyHex : ∀ text, hexFullmatch text = true → env.slugify text = text.map asciiLower)
    (hex : hexFullmatch left = true) :
    ∃ body, (∀ char ∈ body, char ≠ 0x2d) ∧
      groupSlugForRef env left =
        if left.length ≤ maxSlugLength then left.map asciiLower
        else body ++ 0x2d :: (env.sha256 (encodeUtf8 left)).take 32 := by
  have nonEmpty : left ≠ [] := by
    rintro rfl
    simp [hexFullmatch] at hex
  have plain : ∀ char ∈ left.map asciiLower, char ≠ 0x2d := by
    intro char member
    obtain ⟨source, sourceMember, rfl⟩ := List.mem_map.mp member
    rw [hexFullmatch, Bool.and_eq_true, List.all_eq_true] at hex
    exact asciiLower_ne_dash (hex.2 source sourceMember)
  have slug : env.slugify left = left.map asciiLower := slugifyHex left hex
  refine ⟨(left.map asciiLower).take
    (maxSlugLength - ((env.sha256 (encodeUtf8 left)).take 32).length - 1), ?_, ?_⟩
  · intro char member
    exact plain char (List.mem_of_mem_take member)
  · have dash : lit "-" = [0x2d] := by decide
    simp only [groupSlugForRef, slug, List.map_eq_nil_iff, nonEmpty, if_false, List.length_map, dash]
    split <;> simp

/-- Two references have one slug when they are short and equal but for case, or equal. -/
theorem groupSlugForRef_eq
    (slugifyHex : ∀ text, hexFullmatch text = true → env.slugify text = text.map asciiLower)
    (leftHex : hexFullmatch left = true) (rightHex : hexFullmatch right = true)
    (apart : (env.sha256 (encodeUtf8 left)).take 32 = (env.sha256 (encodeUtf8 right)).take 32 →
      left = right) (same : groupSlugForRef env left = groupSlugForRef env right) :
    left = right ∨ (left.length ≤ maxSlugLength ∧ left.map asciiLower = right.map asciiLower) := by
  obtain ⟨leftBody, leftPlain, leftSlug⟩ := groupSlugForRef_hex slugifyHex leftHex
  obtain ⟨rightBody, rightPlain, rightSlug⟩ := groupSlugForRef_hex slugifyHex rightHex
  have dashless : ∀ text : Str, hexFullmatch text = true → (0x2d : Nat) ∉ text.map asciiLower := by
    intro text hex member
    obtain ⟨source, sourceMember, lowered⟩ := List.mem_map.mp member
    rw [hexFullmatch, Bool.and_eq_true, List.all_eq_true] at hex
    exact asciiLower_ne_dash (hex.2 source sourceMember) lowered
  rw [leftSlug, rightSlug] at same
  by_cases leftShort : left.length ≤ maxSlugLength
  · by_cases rightShort : right.length ≤ maxSlugLength
    · rw [if_pos leftShort, if_pos rightShort] at same
      exact .inr ⟨leftShort, same⟩
    · -- only the long one has a dash
      rw [if_pos leftShort, if_neg rightShort] at same
      exact absurd (same ▸ by simp) (dashless left leftHex)
  · by_cases rightShort : right.length ≤ maxSlugLength
    · rw [if_neg leftShort, if_pos rightShort] at same
      exact absurd (same ▸ by simp) (dashless right rightHex)
    · rw [if_neg leftShort, if_neg rightShort] at same
      have bodies : leftBody = rightBody := by
        rw [← takeWhile_dash leftPlain, same, takeWhile_dash rightPlain]
      rw [bodies, List.append_cancel_left_eq, List.cons.injEq] at same
      exact .inl (apart same.2)

end Slugs

/-! ### Runs -/

/-- The upload that follows some others in a run is stored. -/
def StoredAfter (env : Env) (uploads done : List Upload) (upload : Upload) : Prop :=
  done ++ [upload] <+: uploads ∧
    ∃ fileId, (ingest env (storeAfter env done) upload).1 = .stored fileId true

/-- A line of a stored upload of the run declares the reference. -/
def AcceptedRef (env : Env) (uploads : List Upload) (groupRef : Str) : Prop :=
  ∃ done upload, StoredAfter env uploads done upload ∧
    ∃ line ∈ uploadLines env upload, line.declaredGroupRef = .str groupRef ∧
      validGroupRef (.str groupRef) = true

/-- A stored upload of the run files a line that declares the reference under the group. -/
def ResolvesTo (env : Env) (uploads : List Upload) (groupRef : Str) (groupId : Nat) : Prop :=
  ∃ done upload, StoredAfter env uploads done upload ∧
    ∃ line ∈ uploadLines env upload, line.declaredGroupRef = .str groupRef ∧
      validGroupRef (.str groupRef) = true ∧
      uploadGroupOf env (storeAfter env done) upload (uploadLines env upload) line = some groupId

/-- References and groups correspond one to one. -/
structure IdentityInjective (env : Env) (uploads : List Upload) : Prop where
  injective : ∀ left leftId right rightId, ResolvesTo env uploads left leftId →
    ResolvesTo env uploads right rightId → (leftId = rightId ↔ left = right)
  stored : ∀ groupRef groupId, ResolvesTo env uploads groupRef groupId →
    ∃ group ∈ (storeAfter env uploads).groups, group.id = groupId ∧ group.groupRef = groupRef

section Run

variable {env : Env} {uploads : List Upload}

theorem storeAfter_snoc (env : Env) (uploads : List Upload) (upload : Upload) :
    storeAfter env (uploads ++ [upload]) = afterUpload env (storeAfter env uploads) upload := by
  rw [storeAfter, run_append]
  rfl

/-- A stored upload, with everything its transaction did. -/
theorem StoredAfter.storedUpload {done : List Upload} {upload : Upload}
    (stored : StoredAfter env uploads done upload) :
    ∃ rawText, StoredUpload env (storeAfter env done) upload rawText (uploadLines env upload)
      (storeAfter env (done ++ [upload])) := by
  obtain ⟨-, fileId, result⟩ := stored
  rcases ingest_cases env (storeAfter env done) upload with ⟨rejected, same⟩ |
    ⟨file, -, rawText, lines, -, -, same⟩ | ⟨rawText, lines, next, transaction, same⟩
  · rw [same] at result
    cases result
  · rw [same] at result
    cases result
  · refine ⟨rawText, ?_⟩
    rw [storeAfter_snoc, transaction.afterUpload_eq, uploadLines_eq transaction.valid]
    exact transaction

theorem storedAfter_of_storedUpload {done : List Upload} {upload : Upload} {rawText : Str}
    {lines : List ParsedLine} {next : Store} (within : done ++ [upload] <+: uploads)
    (stored : StoredUpload env (storeAfter env done) upload rawText lines next) :
    StoredAfter env uploads done upload := by
  refine ⟨within, (storeAfter env done).nextFileId, ?_⟩
  have unseen : (storeAfter env done).files.find? (·.fileSha256 = env.sha256 upload.dumpBytes) =
      none := by
    apply List.find?_eq_none.mpr
    intro file member same
    exact stored.unseen file member (of_decide_eq_true same)
  rw [ingest, stored.valid]
  simp only [unseen, stored.storeUpload_eq]

/-- The stored uploads of a longer run. -/
theorem storedAfter_snoc {done : List Upload} {last upload : Upload} :
    StoredAfter env (uploads ++ [last]) done upload ↔
      StoredAfter env uploads done upload ∨
        (done = uploads ∧ upload = last ∧ StoredAfter env (uploads ++ [last]) uploads last) := by
  constructor
  · rintro ⟨within, stored⟩
    rcases List.prefix_concat_iff.mp within with whole | earlier
    · obtain ⟨rfl, same⟩ := List.append_inj' whole rfl
      cases same
      exact .inr ⟨rfl, rfl, within, stored⟩
    · exact .inl ⟨earlier, stored⟩
  · rintro (⟨within, stored⟩ | ⟨rfl, rfl, stored⟩)
    · exact ⟨within.trans (List.prefix_append _ _), stored⟩
    · exact stored

theorem wellFormed_storeAfter (env : Env) (uploads : List Upload) :
    WellFormed (storeAfter env uploads) := by
  have preserved : ∀ store upload, WellFormed store → WellFormed (afterUpload env store upload) :=
    fun store upload formed => formed.afterUpload env upload
  exact run_invariant preserved .empty uploads

/-- The group table of every run. -/
theorem groupTable_wellFormed (env : Env) (uploads : List Upload) :
    (storeAfter env uploads).groupTable.WellFormed := by
  induction uploads using List.reverseRecOn with
  | nil => exact ⟨by simp [storeAfter, Store.groupTable, Store.empty],
      by simp [storeAfter, Store.groupTable, Store.empty]⟩
  | append_singleton uploads upload inductionHypothesis =>
      rw [storeAfter_snoc]
      rcases afterUpload_cases env (storeAfter env uploads) upload with ⟨rejected, same⟩ | same |
        ⟨rawText, lines, stored⟩
      · rw [same]
        exact inductionHypothesis
      · rw [same]
        exact inductionHypothesis
      · exact stored.groupTable_wellFormed inductionHypothesis

/-- What one more upload does to the groups: nothing, or what its transaction does. -/
theorem storeAfter_snoc_cases (env : Env) (uploads : List Upload) (upload : Upload) :
    (¬ StoredAfter env (uploads ++ [upload]) uploads upload ∧
        (storeAfter env (uploads ++ [upload])).groups = (storeAfter env uploads).groups) ∨
      StoredAfter env (uploads ++ [upload]) uploads upload := by
  by_cases stored : StoredAfter env (uploads ++ [upload]) uploads upload
  · exact .inr stored
  · refine .inl ⟨stored, ?_⟩
    rw [storeAfter_snoc]
    rcases afterUpload_cases env (storeAfter env uploads) upload with ⟨rejected, same⟩ | same |
      ⟨rawText, lines, transaction⟩
    · rw [same]
      rfl
    · rw [same]
    · exact absurd (storedAfter_of_storedUpload (List.prefix_refl _) transaction) stored

/-- A key that stood for a group after some uploads stands for it after more of them. -/
theorem groupIdOfKey_of_prefix {done : List Upload} (within : done <+: uploads) {key : GroupKey}
    (isNamed : key.isNamed) {groupId : Nat}
    (known : groupIdOfKey env (storeAfter env done).groups key = some groupId) :
    groupIdOfKey env (storeAfter env uploads).groups key = some groupId := by
  induction uploads using List.reverseRecOn with
  | nil =>
      rw [List.prefix_nil.mp within] at known
      exact known
  | append_singleton uploads upload inductionHypothesis =>
      rcases List.prefix_concat_iff.mp within with whole | earlier
      · rw [← whole]
        exact known
      · have before := inductionHypothesis earlier
        rcases storeAfter_snoc_cases env uploads upload with ⟨-, same⟩ | stored
        · rw [same]
          exact before
        · obtain ⟨rawText, transaction⟩ := stored.storedUpload
          exact groupIdOfKey_stable (groupTable_wellFormed env uploads) transaction isNamed before

/-- The group a reference resolved to is the one it stands for ever after. -/
theorem ResolvesTo.groupIdOfKey {groupRef : Str} {groupId : Nat}
    (resolves : ResolvesTo env uploads groupRef groupId) :
    groupRef ≠ [] ∧
      groupIdOfKey env (storeAfter env uploads).groups (.ref groupRef) = some groupId := by
  obtain ⟨done, upload, stored, line, member, declared, valid, grouped⟩ := resolves
  obtain ⟨rawText, transaction⟩ := stored.storedUpload
  have isKey := ((transaction.accepted line member).key_eq_ref_iff upload.fallbackGroupSlug).mpr
    ⟨declared, valid⟩
  have isNamed : (GroupKey.ref groupRef).isNamed := isNamed_of_groupKeyForParsedLine isKey
  refine ⟨isNamed, groupIdOfKey_of_prefix stored.1 isNamed ?_⟩
  obtain ⟨key, found, stands⟩ :=
    (uploadGroupOf_eq_some_iff (groupTable_wellFormed env done) member).mp grouped
  rw [isKey, Option.some.injEq] at found
  rw [transaction.groups, groupIdOfKey_refreshGroupRollups, found]
  exact stands

/-- Every accepted reference is resolved when it is accepted. -/
theorem AcceptedRef.resolvesTo {groupRef : Str} (accepted : AcceptedRef env uploads groupRef) :
    ∃ groupId, ResolvesTo env uploads groupRef groupId := by
  obtain ⟨done, upload, stored, line, member, declared, valid⟩ := accepted
  obtain ⟨rawText, transaction⟩ := stored.storedUpload
  have isKey := ((transaction.accepted line member).key_eq_ref_iff upload.fallbackGroupSlug).mpr
    ⟨declared, valid⟩
  have table := groupTable_wellFormed env done
  obtain ⟨groupId, stands⟩ := (FileOf.created (wellFormed_storeAfter env done) table transaction).resolved
    line member _ isKey
  rw [transaction.groups, groupIdOfKey_refreshGroupRollups] at stands
  exact ⟨groupId, done, upload, stored, line, member, declared, valid,
    (uploadGroupOf_eq_some_iff table member).mpr ⟨_, isKey, stands⟩⟩

theorem ResolvesTo.acceptedRef {groupRef : Str} {groupId : Nat}
    (resolves : ResolvesTo env uploads groupRef groupId) : AcceptedRef env uploads groupRef := by
  obtain ⟨done, upload, stored, line, member, declared, valid, -⟩ := resolves
  exact ⟨done, upload, stored, line, member, declared, valid⟩

theorem acceptedRef_snoc {last : Upload} {groupRef : Str} :
    AcceptedRef env (uploads ++ [last]) groupRef ↔
      AcceptedRef env uploads groupRef ∨
        (StoredAfter env (uploads ++ [last]) uploads last ∧
          ∃ line ∈ uploadLines env last, line.declaredGroupRef = .str groupRef ∧
            validGroupRef (.str groupRef) = true) := by
  constructor
  · rintro ⟨done, upload, stored, declares⟩
    rcases storedAfter_snoc.mp stored with earlier | ⟨rfl, rfl, here⟩
    · exact .inl ⟨done, upload, earlier, declares⟩
    · exact .inr ⟨here, declares⟩
  · rintro (⟨done, upload, stored, declares⟩ | ⟨stored, declares⟩)
    · exact ⟨done, upload, storedAfter_snoc.mpr (.inl stored), declares⟩
    · exact ⟨uploads, last, stored, declares⟩

/-- After every run, the group table registers the accepted references. -/
theorem registers_run (env : Env) (uploads : List Upload) :
    Registers env (storeAfter env uploads).groups (AcceptedRef env uploads) := by
  induction uploads using List.reverseRecOn with
  | nil =>
      apply (Registers.empty env).congr
      intro groupRef
      apply iff_of_false _ not_false
      rintro ⟨done, upload, ⟨within, -⟩, -⟩
      simp at within
  | append_singleton uploads upload inductionHypothesis =>
      rcases storeAfter_snoc_cases env uploads upload with ⟨notStored, same⟩ | stored
      · rw [same]
        apply inductionHypothesis.congr
        intro groupRef
        rw [acceptedRef_snoc]
        exact or_iff_left fun both => notStored both.1
      · obtain ⟨rawText, transaction⟩ := stored.storedUpload
        have keysNamed : ∀ key ∈ groupKeys upload.fallbackGroupSlug (uploadLines env upload),
            key.isNamed := by
          intro key member
          obtain ⟨line, -, found⟩ := mem_groupKeys.mp member
          exact isNamed_of_groupKeyForParsedLine found
        rw [transaction.groups]
        apply Registers.refreshGroupRollups
        apply (registers_resolveGroupKeys (groupTable_wellFormed env uploads) inductionHypothesis
          upload.fallbackGroupName keysNamed).congr
        intro groupRef
        rw [acceptedRef_snoc, mem_groupKeys]
        apply or_congr_right
        rw [and_iff_right stored]
        apply exists_congr
        intro line
        apply and_congr_right
        intro member
        exact ((transaction.accepted line member).key_eq_ref_iff upload.fallbackGroupSlug).symm

/-- Accepted references stand in the lines of the run's uploads. -/
theorem AcceptedRef.declared {groupRef : Str} (accepted : AcceptedRef env uploads groupRef) :
    ∃ upload ∈ uploads, ∃ line ∈ uploadLines env upload,
      line.declaredGroupRef = .str groupRef := by
  obtain ⟨done, upload, ⟨within, -⟩, line, member, declared, -⟩ := accepted
  exact ⟨upload, within.subset (by simp), line, member, declared⟩

/-- A record of a send in a group. -/
def groupRecord (groupRef : Str) : Str :=
  recordText (lit "e") groupRef 100 [] (lit "\x7b\"type\":\"send_entry\"," ++
    lit "\"intent_kind\":\"app\"\x7d")

/-- Knows the records of three references, and the references. -/
def casedEnv : Env :=
  digestEnv
    [(groupRecord (lit "ab"),
        lit "f498d216f252f53cf1579508a6ce79db" ++ lit "76102657c87ebb2a48d8335717c0d20b"),
      (groupRecord (lit "AB"),
        lit "cf76906fa4c465acdbdfb441c29f58ac" ++ lit "2b8fb8a7b2e69078f844b6f470fe6413"),
      (groupRecord (lit "cd"),
        lit "322bf4405c299a99aa3097bab6e5a2f5" ++ lit "9c27f96272e408c2005b56bfbdd98c18"),
      (lit "ab", lit "fb8e20fc2e4c3f248c60c39bd652f3c1" ++ lit "347298bb977b8b4d5903b85055620603"),
      (lit "AB", lit "38164fbd17603d73f696b8b4d72664d7" ++ lit "35bb6a7c88577687fd2ae33fd6964153"),
      (lit "cd", lit "21e721c35a5823fdb452fa2f9f0a612c" ++ lit "74fb952e06927489c6b27a43b817bed4")]

/-- One upload for each reference. -/
def refUploads (groupRefs : List Str) : List Upload :=
  groupRefs.map fun groupRef => uploadOf [groupRecord groupRef]

/-- In every run: references and groups correspond one to one exactly when no two accepted references
short enough to be slugs differ in letter case alone. -/
theorem identityInjective_iff (env : Env)
    (slugifyHex : ∀ text, hexFullmatch text = true → env.slugify text = text.map asciiLower)
    (uploads : List Upload)
    (digestsApart : ∀ left right, AcceptedRef env uploads left → AcceptedRef env uploads right →
      (env.sha256 (encodeUtf8 left)).take 32 = (env.sha256 (encodeUtf8 right)).take 32 →
        left = right) :
    IdentityInjective env uploads ↔
      ∀ left right, AcceptedRef env uploads left → AcceptedRef env uploads right →
        left.length ≤ maxSlugLength → left.map asciiLower = right.map asciiLower →
          left = right := by
  have registers := registers_run env uploads
  have table := groupTable_wellFormed env uploads
  have hexOf : ∀ groupRef, AcceptedRef env uploads groupRef → hexFullmatch groupRef = true := by
    rintro groupRef ⟨-, -, -, -, -, -, valid⟩
    rw [validGroupRef, Bool.and_eq_true] at valid
    exact valid.1
  constructor
  · intro identity left right leftAccepted rightAccepted short lowered
    obtain ⟨leftId, leftResolves⟩ := leftAccepted.resolvesTo
    obtain ⟨rightId, rightResolves⟩ := rightAccepted.resolvesTo
    obtain ⟨leftGroup, leftMember, -, leftRef⟩ := identity.stored left leftId leftResolves
    obtain ⟨rightGroup, rightMember, -, rightRef⟩ := identity.stored right rightId rightResolves
    have leftSlug := (registers.origin leftGroup leftMember
      (leftRef ▸ leftResolves.groupIdOfKey.1)).2
    have rightSlug := (registers.origin rightGroup rightMember
      (rightRef ▸ rightResolves.groupIdOfKey.1)).2
    have rightShort : right.length ≤ maxSlugLength := by
      have sameLength := congrArg List.length lowered
      simp only [List.length_map] at sameLength
      omega
    obtain ⟨_, -, leftForm⟩ := groupSlugForRef_hex slugifyHex (hexOf left leftAccepted)
    obtain ⟨_, -, rightForm⟩ := groupSlugForRef_hex slugifyHex (hexOf right rightAccepted)
    rw [if_pos short] at leftForm
    rw [if_pos rightShort] at rightForm
    -- one slug is one row, and a row stores one reference
    have sameGroup : leftGroup = rightGroup := by
      apply registers.eq_of_slug leftMember rightMember
      rw [leftSlug, rightSlug, leftRef, rightRef, leftForm, rightForm, lowered]
    rw [← leftRef, sameGroup, rightRef]
  · intro caseless
    have slugsApart : ∀ left right, AcceptedRef env uploads left → AcceptedRef env uploads right →
        groupSlugForRef env left = groupSlugForRef env right → left = right := by
      intro left right leftAccepted rightAccepted same
      rcases groupSlugForRef_eq slugifyHex (hexOf left leftAccepted) (hexOf right rightAccepted)
        (digestsApart left right leftAccepted rightAccepted) same with equal | ⟨short, lowered⟩
      · exact equal
      · exact caseless left right leftAccepted rightAccepted short lowered
    have stored : ∀ groupRef groupId, ResolvesTo env uploads groupRef groupId →
        ∃ group ∈ (storeAfter env uploads).groups, group.id = groupId ∧
          group.groupRef = groupRef := by
      intro groupRef groupId resolves
      obtain ⟨isNamed, stands⟩ := resolves.groupIdOfKey
      obtain ⟨group, member, slug, named⟩ := registers.known groupRef resolves.acceptedRef
      obtain ⟨isAccepted, ownSlug⟩ := registers.origin group member named
      rw [registers.groupIdOfKey_ref isNamed member slug, Option.some.injEq] at stands
      exact ⟨group, member, stands, slugsApart _ _ isAccepted resolves.acceptedRef
        (ownSlug.symm.trans slug)⟩
    refine ⟨?_, stored⟩
    intro left leftId right rightId leftResolves rightResolves
    constructor
    · intro sameId
      obtain ⟨leftGroup, leftMember, leftHas, leftRef⟩ := stored left leftId leftResolves
      obtain ⟨rightGroup, rightMember, rightHas, rightRef⟩ := stored right rightId rightResolves
      have sameGroup : leftGroup = rightGroup :=
        List.inj_on_of_nodup_map table.ids leftMember rightMember
          (leftHas.trans (sameId.trans rightHas.symm))
      rw [← leftRef, sameGroup, rightRef]
    · intro sameRef
      have stands := leftResolves.groupIdOfKey.2
      rw [sameRef, rightResolves.groupIdOfKey.2, Option.some.injEq] at stands
      exact stands.symm

/-- Two references with different letters have their own groups. -/
theorem identityInjective_distinctRefs :
    IdentityInjective casedEnv (refUploads [lit "ab", lit "cd"]) := by
  have listed : ∀ groupRef, AcceptedRef casedEnv (refUploads [lit "ab", lit "cd"]) groupRef →
      groupRef ∈ [lit "ab", lit "cd"] := by
    intro groupRef accepted
    obtain ⟨upload, uploadMember, line, member, declared⟩ := accepted.declared
    have read : ∀ upload ∈ refUploads [lit "ab", lit "cd"], ∀ line ∈ uploadLines casedEnv upload,
        valueIfStr line.declaredGroupRef ∈ [lit "ab", lit "cd"] := by decide +kernel
    have found := read upload uploadMember line member
    rwa [declared] at found
  apply (identityInjective_iff casedEnv (fun _ _ => rfl) _ _).mpr
  · intro left right leftAccepted rightAccepted
    have apart : ∀ left ∈ [lit "ab", lit "cd"], ∀ right ∈ [lit "ab", lit "cd"],
        left.length ≤ maxSlugLength → left.map asciiLower = right.map asciiLower →
          left = right := by decide +kernel
    exact apart left (listed left leftAccepted) right (listed right rightAccepted)
  · intro left right leftAccepted rightAccepted
    have apart : ∀ left ∈ [lit "ab", lit "cd"], ∀ right ∈ [lit "ab", lit "cd"],
        (casedEnv.sha256 (encodeUtf8 left)).take 32 =
          (casedEnv.sha256 (encodeUtf8 right)).take 32 → left = right := by decide +kernel
    exact apart left (listed left leftAccepted) right (listed right rightAccepted)

/-- The references `ab` and `AB` share the group of the first. -/
theorem identityInjective_fails_mixedCase :
    ResolvesTo casedEnv (refUploads [lit "ab", lit "AB"]) (lit "ab") 1 ∧
      ResolvesTo casedEnv (refUploads [lit "ab", lit "AB"]) (lit "AB") 1 ∧
      ¬ IdentityInjective casedEnv (refUploads [lit "ab", lit "AB"]) := by
  have first : ResolvesTo casedEnv (refUploads [lit "ab", lit "AB"]) (lit "ab") 1 :=
    ⟨[], uploadOf [groupRecord (lit "ab")], ⟨⟨_, rfl⟩, 1, by decide +kernel⟩, by decide +kernel⟩
  have second : ResolvesTo casedEnv (refUploads [lit "ab", lit "AB"]) (lit "AB") 1 :=
    ⟨[uploadOf [groupRecord (lit "ab")]], uploadOf [groupRecord (lit "AB")],
      ⟨⟨_, rfl⟩, 2, by decide +kernel⟩, by decide +kernel⟩
  refine ⟨first, second, ?_⟩
  intro identity
  have same := (identity.injective _ _ _ _ first second).mp rfl
  revert same
  decide +kernel

end Run

end Goggles
