import FiduciaRouting.Proofs.DomainKeys

/-! Isolation of org keyspaces. The prefix of an org is a self-delimiting header,
and no internal key can be taken for one. -/

namespace FiduciaRouting.Proofs.OrgIsolation
open Library Framing Text

/-- An org id the node accepts: it does not contain the scope delimiter. -/
structure OrgId where
  text : String
  valid : orgScopeDelim ∉ text.toList
  deriving DecidableEq

theorem OrgId.ext {first second : OrgId} (same : first.text = second.text) : first = second := by
  cases first
  cases second
  cases same
  rfl

inductive StoredKey where
  | orgKey (org : OrgId) (key : String)
  | lockCoordination
  | serviceDiscovery
  | lockDomain (domain : LockCoordinationDomain)

def StoredKey.text : StoredKey → String
  | orgKey org key => orgScopedKey org.text key
  | lockCoordination => lockCoordinationKey
  | serviceDiscovery => serviceDiscoveryKey
  | lockDomain domain => lockCoordinationDomainKey domain

def StoredKey.ownedBy (org : OrgId) : StoredKey → Option String
  | orgKey owner key => if owner = org then some key else none
  | _ => none

/-- The isolation filter: keep the entries under the prefix, then strip it once. -/
def isolate (orgId : String) (keys : List String) : List String :=
  (keys.filter (fun key => startsWith key (orgScopePrefix orgId))).filterMap
    (fun key => stripPrefix key (orgScopePrefix orgId))

def header (org : OrgId) : List Char := [orgScopeDelim] ++ (org.text.toList ++ [orgScopeDelim])

theorem toList_orgScopePrefix (org : OrgId) : (orgScopePrefix org.text).toList = header org := by
  simp [orgScopePrefix, orgScopedKey, header]

theorem toList_scopedKey (org : OrgId) (key : String) : (orgScopedKey org.text key).toList = header org ++ key.toList := by
  simp [orgScopedKey, header]

theorem headers_delimited : SelfDelimiting header := by
  apply SelfDelimiting.framed
  apply SelfDelimiting.terminated
  · exact fun first second same => OrgId.ext (String.toList_inj.mp same)
  · exact OrgId.valid

/-- Internal keys start with NUL, prefixes with the delimiter. -/
theorem internal_apart (org : OrgId) {text : String} (internal : text.toList.take 1 = ['\u0000']) :
    Apart text.toList (header org) := by
  have present : 1 ≤ text.toList.length := by
    cases chars : text.toList with
    | nil => simp [chars] at internal
    | cons first rest => simp
  apply Apart.of_take present (by simp [header])
  rw [internal]
  simp [header, orgScopeDelim]

theorem stripPrefix_internal (org : OrgId) {text : String} (internal : text.toList.take 1 = ['\u0000']) :
    stripPrefix text (orgScopePrefix org.text) = none := by
  cases found : stripPrefix text (orgScopePrefix org.text) with
  | none => rfl
  | some rest =>
    have split := congrArg String.toList (stripPrefix_eq_some.mp found)
    rw [String.toList_append, toList_orgScopePrefix] at split
    exact False.elim (internal_apart org internal [] rest.toList (by rw [List.append_nil, split]))

theorem stripPrefix_stored (org : OrgId) (entry : StoredKey) :
    stripPrefix entry.text (orgScopePrefix org.text) = entry.ownedBy org := by
  cases entry with
  | orgKey owner key =>
    have cut := headers_delimited.dropPrefix? org owner key.toList
    simp only [stripPrefix, StoredKey.text, StoredKey.ownedBy, toList_orgScopePrefix, toList_scopedKey, cut]
    split <;> simp
  | lockCoordination => exact stripPrefix_internal org (by decide)
  | serviceDiscovery => exact stripPrefix_internal org (by decide)
  | lockDomain domain =>
    apply stripPrefix_internal
    simp only [StoredKey.text, DomainKeys.toList_key, List.append_assoc]
    rw [List.take_append_of_le_length (by decide)]
    decide

theorem startsWith_eq_isSome (text front : String) : startsWith text front = (stripPrefix text front).isSome := by
  rw [Bool.eq_iff_iff, startsWith_iff, Option.isSome_iff_exists]
  simp only [stripPrefix_eq_some]

theorem isolate_eq (orgId : String) (keys : List String) :
    isolate orgId keys = keys.filterMap (fun key => stripPrefix key (orgScopePrefix orgId)) := by
  rw [isolate, List.filterMap_filter]
  apply List.filterMap_congr
  intro key _
  rw [startsWith_eq_isSome]
  cases stripPrefix key (orgScopePrefix orgId) <;> rfl

/-- Filtering any store by an org's prefix yields exactly the keys that org
stored, in order; scoping is injective on valid org ids. -/
theorem org_keyspaces_isolated :
    (∀ (org : OrgId) (stored : List StoredKey),
      isolate org.text (stored.map StoredKey.text) = stored.filterMap (StoredKey.ownedBy org)) ∧
    (∀ (first second : OrgId) (left right : String),
      orgScopedKey first.text left = orgScopedKey second.text right → first = second ∧ left = right) := by
  constructor
  · intro org stored
    rw [isolate_eq, List.filterMap_map]
    apply List.filterMap_congr
    intro entry _
    exact stripPrefix_stored org entry
  · intro first second left right same
    have chars := congrArg String.toList same
    rw [toList_scopedKey, toList_scopedKey] at chars
    obtain ⟨orgs, keys⟩ := headers_delimited chars
    exact ⟨orgs, String.toList_inj.mp keys⟩

theorem org_keyspaces_isolated_example :
    orgScopedKey "org-a" "\u0001org-b\u0001victim" ≠ orgScopedKey "org-b" "victim" :=
  fun same => absurd (org_keyspaces_isolated.2 ⟨"org-a", by decide⟩ ⟨"org-b", by decide⟩
    "\u0001org-b\u0001victim" "victim" same).1 (by decide)

end FiduciaRouting.Proofs.OrgIsolation
