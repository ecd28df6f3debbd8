import FiduciaRouting.Library.Framing
import FiduciaRouting.LockCoordination

/-! DomainV1 keys are self-delimiting: prefix, kind and byte length announce where
the identifier ends, so its content is never interpreted. -/

namespace FiduciaRouting.Proofs.DomainKeys
open Library Framing Text

def nul : Char := '\u0000'

abbrev Kind := { kind : String // kind ∈ ["tenant", "shared", "system"] }

def announcement (domain : LockCoordinationDomain) : Kind × ℕ :=
  (⟨domain.kindAndId.1, by cases domain <;> simp [LockCoordinationDomain.kindAndId]⟩, domain.kindAndId.2.utf8ByteSize)

def writeAnnouncement (announced : Kind × ℕ) : List Char :=
  (announced.1.val.toList ++ [nul]) ++ (Nat.toDigits 10 announced.2 ++ [nul])

theorem toList_key (domain : LockCoordinationDomain) :
    (lockCoordinationDomainKey domain).toList =
      (lockCoordinationDomainV1Prefix.toList ++ [nul]) ++ writeAnnouncement (announcement domain) ++
        domain.kindAndId.2.toList := by
  simp only [lockCoordinationDomainKey, String.toList_append, Nat.toList_repr]
  simp [nul, writeAnnouncement, announcement]

theorem kindAndId_injective : Function.Injective LockCoordinationDomain.kindAndId := by
  intro first second same
  cases first <;> cases second <;> simp_all [LockCoordinationDomain.kindAndId]

theorem kinds_delimited : SelfDelimiting (fun kind : Kind => kind.val.toList ++ [nul]) := by
  apply SelfDelimiting.terminated
  · intro first second same
    exact Subtype.ext (String.toList_inj.mp same)
  · have clear : ∀ kind ∈ ["tenant", "shared", "system"], nul ∉ kind.toList := by decide
    exact fun kind => clear kind.val kind.property

theorem decimals_delimited : SelfDelimiting (fun n : ℕ => Nat.toDigits 10 n ++ [nul]) := by
  apply SelfDelimiting.terminated
  · intro first second same
    exact toDigits_injective same
  · exact not_mem_toDigits rfl

theorem announcements_delimited : SelfDelimiting writeAnnouncement := by
  apply kinds_delimited.announced Prod.fst (fun announced : Kind × ℕ => Nat.toDigits 10 announced.2 ++ [nul])
  intro first second left right sameKind same
  obtain ⟨sameLength, rest⟩ := decimals_delimited same
  exact ⟨Prod.ext sameKind sameLength, rest⟩

/-- Identifiers of one announced byte length cannot extend each other. -/
theorem domain_keys_delimited : SelfDelimiting (fun domain => (lockCoordinationDomainKey domain).toList) := by
  have headed := (announcements_delimited.framed (lockCoordinationDomainV1Prefix.toList ++ [nul])).announced
    announcement (fun domain => domain.kindAndId.2.toList)
  simp only [toList_key]
  apply headed
  intro first second left right announced same
  have sameKind : first.kindAndId.1 = second.kindAndId.1 := congrArg (fun pair => pair.1.val) announced
  have sameLength : first.kindAndId.2.utf8ByteSize = second.kindAndId.2.utf8ByteSize := congrArg Prod.snd announced
  rw [utf8ByteSize_eq_sum, utf8ByteSize_eq_sum] at sameLength
  obtain ⟨sameId, rest⟩ := eq_of_weight_eq Char.utf8Size_pos same sameLength
  exact ⟨kindAndId_injective (Prod.ext sameKind (String.toList_inj.mp sameId)), rest⟩

/-- Both reserved keys leave the domain prefix within its first characters. -/
theorem domain_key_apart (domain : LockCoordinationDomain) {reserved : String}
    (known : reserved = lockCoordinationKey ∨ reserved = serviceDiscoveryKey) :
    Apart (lockCoordinationDomainKey domain).toList reserved.toList := by
  have prefixApart : Apart lockCoordinationDomainV1Prefix.toList reserved.toList := by
    rcases known with rfl | rfl
    · exact Apart.of_take (n := 15) (by decide) (by decide) (by decide)
    · exact Apart.of_take (n := 15) (by decide) (by decide) (by decide)
  rw [toList_key, List.append_assoc, List.append_assoc]
  exact prefixApart.append_left _

theorem append_toList {first second left right : String} (same : first ++ left = second ++ right) :
    first.toList ++ left.toList = second.toList ++ right.toList := by
  rw [← String.toList_append, same, String.toList_append]

/-- A key followed by any text determines the domain and the text. -/
theorem domain_key_self_delimiting :
    (∀ (first second : LockCoordinationDomain) (left right : String),
      lockCoordinationDomainKey first ++ left = lockCoordinationDomainKey second ++ right →
        first = second ∧ left = right) ∧
    (∀ first second : LockCoordinationDomain,
      lockCoordinationDomainKey first = lockCoordinationDomainKey second → first = second) ∧
    (∀ first second : LockCoordinationDomain,
      (lockCoordinationDomainKey first).toList <+: (lockCoordinationDomainKey second).toList → first = second) ∧
    (∀ (domain : LockCoordinationDomain) (reserved : String),
      reserved = lockCoordinationKey ∨ reserved = serviceDiscoveryKey → ∀ text : String,
        lockCoordinationDomainKey domain ++ text ≠ reserved ∧ reserved ++ text ≠ lockCoordinationDomainKey domain) := by
  refine ⟨?_, ?_, ?_, ?_⟩
  · intro first second left right same
    obtain ⟨domains, texts⟩ := domain_keys_delimited (append_toList same)
    exact ⟨domains, String.toList_inj.mp texts⟩
  · intro first second same
    exact domain_keys_delimited.injective (congrArg String.toList same)
  · intro first second initial
    exact domain_keys_delimited.prefix_free initial
  · intro domain reserved known text
    have apart := domain_key_apart domain known
    constructor
    · intro same
      apply apart text.toList []
      rw [← String.toList_append, same, List.append_nil]
    · intro same
      apply apart [] text.toList
      rw [← String.toList_append, same, List.append_nil]

theorem domain_key_self_delimiting_example :
    lockCoordinationDomainKey (.tenant "a") ++ "b" ≠ lockCoordinationDomainKey (.tenant "ab") :=
  fun same => absurd (domain_key_self_delimiting.1 (.tenant "a") (.tenant "ab") "b" "" (by simpa using same)).1 (by decide)

end FiduciaRouting.Proofs.DomainKeys
