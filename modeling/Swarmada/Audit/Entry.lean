import Swarmada.Text.Json

namespace Swarmada.Audit

open Text

structure Actor where
  type : String
  identity : String
  sourceIP : String := ""
deriving DecidableEq, Repr

structure Resource where
  kind : String
  ns : String
  name : String
deriving DecidableEq, Repr

structure Detail where
  members : List (String × String) := []
  ordered : members.Pairwise fun a b => a.1 < b.1 := by simp
deriving DecidableEq

structure Entry where
  sequenceNumber : Nat := 0
  eventType : String
  eventTime : String := ""
  ns : String
  actor : Actor
  resource : Resource
  action : String
  outcome : String
  detail : Detail := {}
  swarmadaVersion : String := ""
  logVersion : String := ""
  chainHash : String := ""
deriving DecidableEq

def Actor.marshal (actor : Actor) : List Char :=
  Json.literal "\x7b\"type\":" ++ Json.string actor.type ++ Json.literal ",\"identity\":" ++ Json.string actor.identity ++
    (if actor.sourceIP = "" then [] else Json.literal ",\"source_ip\":" ++ Json.string actor.sourceIP) ++ Json.literal "\x7d"

def Resource.marshal (resource : Resource) : List Char :=
  Json.literal "\x7b\"kind\":" ++ Json.string resource.kind ++ Json.literal ",\"namespace\":" ++ Json.string resource.ns ++
    Json.literal ",\"name\":" ++ Json.string resource.name ++ Json.literal "\x7d"

def Entry.marshal (entry : Entry) : List Char :=
  Json.literal "\x7b\"sequence_number\":" ++ Json.number entry.sequenceNumber ++
    Json.literal ",\"event_type\":" ++ Json.string entry.eventType ++
    Json.literal ",\"event_time\":" ++ Json.string entry.eventTime ++
    Json.literal ",\"namespace\":" ++ Json.string entry.ns ++
    Json.literal ",\"actor\":" ++ entry.actor.marshal ++
    Json.literal ",\"resource\":" ++ entry.resource.marshal ++
    Json.literal ",\"action\":" ++ Json.string entry.action ++
    Json.literal ",\"outcome\":" ++ Json.string entry.outcome ++
    (if entry.detail.members = [] then [] else Json.literal ",\"detail\":" ++ Json.map entry.detail.members) ++
    Json.literal ",\"swarmada_version\":" ++ Json.string entry.swarmadaVersion ++
    Json.literal ",\"log_version\":" ++ Json.string entry.logVersion ++
    Json.literal ",\"chain_hash\":" ++ Json.string entry.chainHash ++ Json.literal "\x7d"

theorem Actor.marshal_inj {actor actor' : Actor}
    (same : actor.marshal ++ rest = actor'.marshal ++ rest') : actor = actor' ∧ rest = rest' := by
  simp only [Actor.marshal, List.append_assoc] at same
  obtain ⟨_, same⟩ := Json.member_inj same
  obtain ⟨_, same⟩ := Json.member_inj same
  obtain ⟨_, _⟩ := Json.optional_inj ⟨0, by decide⟩ (fun _ _ => Json.string_inj) same
  cases actor
  simp_all

theorem Resource.marshal_inj {resource resource' : Resource}
    (same : resource.marshal ++ rest = resource'.marshal ++ rest') : resource = resource' ∧ rest = rest' := by
  simp only [Resource.marshal, List.append_assoc] at same
  obtain ⟨_, same⟩ := Json.member_inj same
  obtain ⟨_, same⟩ := Json.member_inj same
  obtain ⟨_, same⟩ := Json.member_inj same
  cases resource
  simp_all

theorem Detail.ext {detail detail' : Detail} (same : detail.members = detail'.members) : detail = detail' := by
  cases detail'
  cases same
  rfl

theorem Entry.marshal_inj {entry entry' : Entry}
    (same : entry.marshal ++ rest = entry'.marshal ++ rest') : entry = entry' ∧ rest = rest' := by
  unfold Entry.marshal at same
  simp only [List.append_assoc] at same
  obtain ⟨_, same⟩ := Json.number_inj (by decide) same
  obtain ⟨_, same⟩ := Json.string_inj same
  obtain ⟨_, same⟩ := Json.member_inj same
  obtain ⟨_, same⟩ := Json.member_inj same
  obtain ⟨_, same⟩ := Actor.marshal_inj (List.append_cancel_left same)
  obtain ⟨_, same⟩ := Resource.marshal_inj (List.append_cancel_left same)
  obtain ⟨_, same⟩ := Json.member_inj same
  obtain ⟨_, same⟩ := Json.member_inj same
  obtain ⟨details, same⟩ := Json.optional_inj ⟨2, by decide⟩ (fun some some' => Json.map_inj some some') same
  obtain ⟨_, same⟩ := Json.string_inj same
  obtain ⟨_, same⟩ := Json.member_inj same
  obtain ⟨_, same⟩ := Json.member_inj same
  have maps := Detail.ext details
  cases entry
  simp_all

theorem Actor.notMem_marshal (actor : Actor) : '\n' ∉ actor.marshal := by
  unfold Actor.marshal
  split <;> simp [Json.literal, Json.notMem_string]

theorem Resource.notMem_marshal (resource : Resource) : '\n' ∉ resource.marshal := by
  unfold Resource.marshal
  simp [Json.literal, Json.notMem_string]

theorem Entry.notMem_marshal (entry : Entry) : '\n' ∉ entry.marshal := by
  have digits : '\n' ∉ Json.number entry.sequenceNumber := by
    unfold Json.number
    exact notMem_toDigits rfl
  unfold Entry.marshal
  split <;>
    simp only [List.mem_append, Json.notMem_string, Json.notMem_map, Actor.notMem_marshal, Resource.notMem_marshal, digits,
      List.not_mem_nil, or_false] <;>
    (unfold Json.literal; decide)

theorem Entry.marshal_cons (entry : Entry) : ∃ others, entry.marshal = '\x7b' :: others := by
  have lead : ∃ others, Json.literal "\x7b\"sequence_number\":" = '\x7b' :: others := by
    unfold Json.literal
    exact List.head?_eq_some_iff.1 (by decide)
  obtain ⟨_, lead⟩ := lead
  unfold Entry.marshal
  simp only [List.append_assoc]
  rw [lead, List.cons_append]
  exact ⟨_, rfl⟩

end Swarmada.Audit
