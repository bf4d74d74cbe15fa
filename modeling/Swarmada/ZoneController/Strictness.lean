import Mathlib.Order.Defs.LinearOrder
import Swarmada.ZoneController.Restrictions

namespace Swarmada.Api

/-- Both rules are on one axis and subject. -/
def EffectiveZoneRestriction.On (rule other : EffectiveZoneRestriction) : Prop :=
  rule.axis = other.axis ∧ rule.subject = other.subject

theorem EffectiveZoneRestriction.On.symm {a b : EffectiveZoneRestriction} (on : a.On b) : b.On a :=
  ⟨on.1.symm, on.2.symm⟩

theorem EffectiveZoneRestriction.On.trans {a b c : EffectiveZoneRestriction} (first : a.On b) (second : b.On c) :
    a.On c :=
  ⟨first.1.trans second.1, first.2.trans second.2⟩

/-- The allow-list of the rule, if it has one, names the value. -/
def EffectiveZoneRestriction.Permits (rule : EffectiveZoneRestriction) (value : String) : Prop :=
  ∀ names, rule.allowed = some names → value ∈ names

theorem EffectiveZoneRestriction.exists_permits {rule : EffectiveZoneRestriction} :
    (∃ value, rule.Permits value) ↔ rule.allowed ≠ some [] := by
  unfold EffectiveZoneRestriction.Permits
  rcases rule.allowed with _ | _ | ⟨_, _⟩ <;> simp

end Swarmada.Api

namespace Swarmada.ZoneController

open Api

variable {ν : Type} [LinearOrder ν] (parseFloat : String → Option ν)

def Bounds (own declared : String) : Prop :=
  declared ≠ "" → ∀ value, parseFloat declared = some value →
    own ≠ "" ∧ ∃ less, parseFloat own = some less ∧ less ≤ value

structure AtLeastAsStrict (effective declared : EffectiveZoneRestriction) : Prop where
  mode : modeRank declared.mode ≤ modeRank effective.mode
  bound : effective.mode ≠ .denied → Bounds parseFloat effective.max declared.max
  permits : effective.mode ≠ .denied → ∀ value, effective.Permits value → declared.Permits value

def declaredRules (chain : List Zone) : List EffectiveZoneRestriction := chain.flatMap declared

def effectiveRules (chain : List Zone) : List EffectiveZoneRestriction :=
  (resolveZoneRestrictions parseFloat chain).1.map EffectiveZoneRestriction.encoded

/-- The set has a rule on the axis and subject of the declared one, and none that is weaker. -/
structure Upheld (effective : List EffectiveZoneRestriction) (declared : EffectiveZoneRestriction) : Prop where
  present : ∃ rule ∈ effective, rule.On declared
  strict : ∀ rule ∈ effective, rule.On declared → AtLeastAsStrict parseFloat rule declared

variable {parseFloat}

theorem modeRank_injective (same : modeRank a = modeRank b) : a = b := by
  cases a <;> cases b <;> simp [modeRank] at same ⊢

theorem modeRank_le_denied (mode : ZoneRestrictionMode) : modeRank mode ≤ modeRank .denied := by
  cases mode <;> simp [modeRank]

theorem bounds_refl (bound : String) : Bounds parseFloat bound bound :=
  fun declared value parsed => ⟨declared, value, parsed, le_refl value⟩

variable (parseFloat) in
theorem tighterMax_bounds (a b : String) :
    (∀ declared, Bounds parseFloat a declared → Bounds parseFloat (tighterMax parseFloat a b) declared) ∧
      Bounds parseFloat (tighterMax parseFloat a b) b := by
  unfold tighterMax
  by_cases noA : a = ""
  · rw [if_pos noA]
    refine ⟨fun declared bounds given value parsed => ?_, bounds_refl b⟩
    exact absurd noA (bounds given value parsed).1
  rw [if_neg noA]
  by_cases noB : b = ""
  · rw [if_pos noB]
    exact ⟨fun declared bounds => bounds, fun given => absurd noB given⟩
  rw [if_neg noB]
  cases parsedA : parseFloat a with
  | none =>
    -- a bound that does not parse bounds nothing that does
    have idle : ∀ declared own, Bounds parseFloat a declared → Bounds parseFloat own declared := by
      intro declared own bounds given value parsed
      obtain ⟨_, read, _⟩ := (bounds given value parsed).2
      simp [parsedA] at read
    cases parsedB : parseFloat b with
    | none => exact ⟨fun declared bounds => bounds, fun _ value parsed => by simp [parsedB] at parsed⟩
    | some => exact ⟨fun declared bounds => idle declared b bounds, bounds_refl b⟩
  | some av =>
    cases parsedB : parseFloat b with
    | none => exact ⟨fun declared bounds => bounds, fun _ value parsed => by simp [parsedB] at parsed⟩
    | some bv =>
      dsimp only
      by_cases less : bv < av
      · rw [if_pos less]
        refine ⟨fun declared bounds given value parsed => ?_, bounds_refl b⟩
        obtain ⟨own, read, smaller⟩ := (bounds given value parsed).2
        rw [parsedA, Option.some.injEq] at read
        subst own
        exact ⟨noB, bv, parsedB, less.le.trans smaller⟩
      · rw [if_neg less]
        refine ⟨fun declared bounds => bounds, fun _ value parsed => ?_⟩
        rw [parsedB, Option.some.injEq] at parsed
        subst value
        exact ⟨noA, av, parsedA, not_lt.mp less⟩

theorem intersectAllowed_names :
    (∀ names, intersectAllowed a b = some names → value ∈ names) ↔
      (∀ names, a = some names → value ∈ names) ∧ ∀ names, b = some names → value ∈ names := by
  cases a <;> cases b <;> simp [intersectAllowed]

theorem deny_keeps (deniedBy : Option String) (rule : EffectiveZoneRestriction) :
    (deny deniedBy rule).On rule ∧ (deny deniedBy rule).mode = rule.mode := by
  unfold deny EffectiveZoneRestriction.On
  dsimp only
  split_ifs <;> simp

variable (parseFloat) in
structure MergeOf (current rule merged : EffectiveZoneRestriction) : Prop where
  on : merged.On current
  mode : merged.mode = if modeRank rule.mode > modeRank current.mode then rule.mode else current.mode
  max : merged.mode ≠ .denied → merged.max = tighterMax parseFloat current.max rule.max
  allowed : merged.mode ≠ .denied → merged.allowed = intersectAllowed current.allowed rule.allowed

theorem MergeOf.deny (merge : MergeOf parseFloat current rule merged) (deniedBy : Option String) :
    MergeOf parseFloat current rule (if merged.mode = .denied then deny deniedBy merged else merged) := by
  by_cases denied : merged.mode = .denied
  · obtain ⟨on, mode⟩ := deny_keeps deniedBy merged
    rw [if_pos denied]
    exact ⟨⟨on.1.trans merge.on.1, on.2.trans merge.on.2⟩, mode.trans merge.mode,
      fun lifted => absurd (mode.trans denied) lifted, fun lifted => absurd (mode.trans denied) lifted⟩
  · rwa [if_neg denied]

variable (parseFloat) in
theorem merge_rule (zoneName : String) (rule : EffectiveZoneRestriction) (current : Folded) :
    MergeOf parseFloat current.rule rule (current.merge parseFloat zoneName rule).rule := by
  unfold Folded.merge
  apply MergeOf.deny
  by_cases higher : modeRank rule.mode > modeRank current.rule.mode
  · simp only [if_pos higher]
    exact ⟨⟨rfl, rfl⟩, (if_pos higher).symm, fun _ => rfl, fun _ => rfl⟩
  · simp only [if_neg higher]
    split_ifs <;> exact ⟨⟨rfl, rfl⟩, (if_neg higher).symm, fun _ => rfl, fun _ => rfl⟩

section
variable {current rule merged : EffectiveZoneRestriction} (merge : MergeOf parseFloat current rule merged)
include merge

theorem MergeOf.current_rank : modeRank current.mode ≤ modeRank merged.mode := by
  rw [merge.mode]
  split_ifs with higher
  · exact Nat.le_of_lt higher
  · exact Nat.le_refl _

theorem MergeOf.rule_rank : modeRank rule.mode ≤ modeRank merged.mode := by
  rw [merge.mode]
  split_ifs with higher
  · exact Nat.le_refl _
  · exact Nat.le_of_not_lt higher

theorem MergeOf.not_denied (lifted : merged.mode ≠ .denied) : current.mode ≠ .denied := by
  intro denied
  apply lifted
  apply modeRank_injective
  exact Nat.le_antisymm (modeRank_le_denied _) (denied ▸ merge.current_rank)

theorem MergeOf.permits (lifted : merged.mode ≠ .denied) (value : String) :
    merged.Permits value ↔ current.Permits value ∧ rule.Permits value := by
  unfold EffectiveZoneRestriction.Permits
  rw [merge.allowed lifted]
  exact intersectAllowed_names

end

variable (parseFloat) in
structure Summarises (read : List EffectiveZoneRestriction) (rule : EffectiveZoneRestriction) : Prop where
  named : ∃ declared ∈ read, declared.On rule ∧ declared.mode = rule.mode
  ranks : ∀ declared ∈ read, declared.On rule → modeRank declared.mode ≤ modeRank rule.mode
  bounds : rule.mode ≠ .denied → ∀ declared ∈ read, declared.On rule → Bounds parseFloat rule.max declared.max
  permits : rule.mode ≠ .denied → ∀ value,
    rule.Permits value ↔ ∀ declared ∈ read, declared.On rule → declared.Permits value

section
variable {read : List EffectiveZoneRestriction} {current rule merged : EffectiveZoneRestriction}

theorem Summarises.first (fresh : ∀ declared ∈ read, ¬ declared.On rule) :
    Summarises parseFloat (read ++ [rule]) rule := by
  have only : ∀ declared ∈ read ++ [rule], declared.On rule → declared = rule := by
    intro declared member on
    rcases List.mem_append.mp member with earlier | last
    · exact absurd on (fresh declared earlier)
    · exact List.mem_singleton.mp last
  refine ⟨⟨rule, by simp, ⟨rfl, rfl⟩, rfl⟩, ?_, ?_, ?_⟩
  · intro declared member on
    rw [only declared member on]
  · intro _ declared member on
    rw [only declared member on]
    exact bounds_refl rule.max
  intro _ value
  constructor
  · intro permits declared member on
    rwa [only declared member on]
  · intro permits
    exact permits rule (by simp) ⟨rfl, rfl⟩

theorem Summarises.other (summary : Summarises parseFloat read current) (off : ¬ rule.On current) :
    Summarises parseFloat (read ++ [rule]) current := by
  have earlier : ∀ declared ∈ read ++ [rule], declared.On current → declared ∈ read := by
    intro declared member on
    rcases List.mem_append.mp member with earlier | last
    · exact earlier
    · exact absurd (List.mem_singleton.mp last ▸ on) off
  obtain ⟨declared, member, on, mode⟩ := summary.named
  refine ⟨⟨declared, List.mem_append_left _ member, on, mode⟩, ?_, ?_, ?_⟩
  · exact fun declared member on => summary.ranks declared (earlier declared member on) on
  · exact fun lifted declared member on => summary.bounds lifted declared (earlier declared member on) on
  intro lifted value
  rw [summary.permits lifted value]
  constructor
  · exact fun permits declared member on => permits declared (earlier declared member on) on
  · exact fun permits declared member on => permits declared (List.mem_append_left _ member) on

theorem Summarises.merge (summary : Summarises parseFloat read current) (on : rule.On current)
    (merge : MergeOf parseFloat current rule merged) : Summarises parseFloat (read ++ [rule]) merged := by
  have onMerged : rule.On merged := on.trans merge.on.symm
  have split : ∀ declared ∈ read ++ [rule], declared.On merged →
      declared ∈ read ∧ declared.On current ∨ declared = rule := by
    intro declared member onDeclared
    rcases List.mem_append.mp member with earlier | last
    · exact .inl ⟨earlier, onDeclared.trans merge.on⟩
    · exact .inr (List.mem_singleton.mp last)
  refine ⟨?_, ?_, ?_, ?_⟩
  · by_cases higher : modeRank rule.mode > modeRank current.mode
    · exact ⟨rule, by simp, onMerged, by rw [merge.mode, if_pos higher]⟩
    obtain ⟨declared, member, onDeclared, mode⟩ := summary.named
    exact ⟨declared, List.mem_append_left _ member, onDeclared.trans merge.on.symm,
      by rw [merge.mode, if_neg higher, mode]⟩
  · intro declared member onDeclared
    rcases split declared member onDeclared with ⟨earlier, onCurrent⟩ | rfl
    · exact (summary.ranks declared earlier onCurrent).trans merge.current_rank
    · exact merge.rule_rank
  · intro lifted declared member onDeclared
    rw [merge.max lifted]
    obtain ⟨kept, added⟩ := tighterMax_bounds parseFloat current.max rule.max
    rcases split declared member onDeclared with ⟨earlier, onCurrent⟩ | rfl
    · exact kept declared.max (summary.bounds (merge.not_denied lifted) declared earlier onCurrent)
    · exact added
  · intro lifted value
    rw [merge.permits lifted value, summary.permits (merge.not_denied lifted) value]
    constructor
    · rintro ⟨kept, added⟩ declared member onDeclared
      rcases split declared member onDeclared with ⟨earlier, onCurrent⟩ | rfl
      · exact kept declared earlier onCurrent
      · exact added
    · intro permits
      refine ⟨fun declared member onCurrent => ?_, permits rule (by simp) onMerged⟩
      exact permits declared (List.mem_append_left _ member) (onCurrent.trans merge.on.symm)

end

variable (parseFloat) in
structure Accounts (read : List EffectiveZoneRestriction) (acc : List Folded) : Prop where
  summary : ∀ folded ∈ acc, Summarises parseFloat read folded.rule
  entry : ∀ declared ∈ read, ∃ folded ∈ acc, folded.rule.On declared

theorem Folded.key_eq {folded : Folded} {rule : EffectiveZoneRestriction} :
    folded.key = (rule.axis, rule.subject) ↔ folded.rule.On rule := by
  rw [Folded.key, Prod.mk.injEq, EffectiveZoneRestriction.On]

variable (parseFloat) in
/-- What the fold keeps of an entry and the rules read so far. -/
structure FoldKeeps (S : List EffectiveZoneRestriction → EffectiveZoneRestriction → Prop) : Prop where
  first : ∀ {read rule}, (∀ declared ∈ read, ¬ declared.On rule) → S (read ++ [rule]) rule
  other : ∀ {read current rule}, S read current → ¬ rule.On current → S (read ++ [rule]) current
  merge : ∀ {read current rule merged}, S read current → rule.On current → MergeOf parseFloat current rule merged →
    S (read ++ [rule]) merged

structure Entries (S : List EffectiveZoneRestriction → EffectiveZoneRestriction → Prop)
    (read : List EffectiveZoneRestriction) (acc : List Folded) : Prop where
  each : ∀ folded ∈ acc, S read folded.rule
  entry : ∀ declared ∈ read, ∃ folded ∈ acc, folded.rule.On declared

section
variable {S : List EffectiveZoneRestriction → EffectiveZoneRestriction → Prop} (keeps : FoldKeeps parseFloat S)
  {read : List EffectiveZoneRestriction} {acc : List Folded}
include keeps

theorem FoldKeeps.merged (zoneName : String) (rule : EffectiveZoneRestriction)
    {folded after : Folded} (holds : S read folded.rule)
    (reads : (if folded.key = (rule.axis, rule.subject) then folded.merge parseFloat zoneName rule else folded) = after) :
    S (read ++ [rule]) after.rule ∧ after.rule.On folded.rule := by
  subst after
  by_cases same : folded.key = (rule.axis, rule.subject)
  · have merge := merge_rule parseFloat zoneName rule folded
    rw [if_pos same]
    exact ⟨keeps.merge holds (Folded.key_eq.mp same).symm merge, merge.on⟩
  · rw [if_neg same]
    exact ⟨keeps.other holds fun on => same (Folded.key_eq.mpr on.symm), rfl, rfl⟩

theorem foldRule_entries (zoneName : String) (rule : EffectiveZoneRestriction) (entries : Entries S read acc) :
    Entries S (read ++ [rule]) (foldRule parseFloat zoneName rule acc) := by
  unfold foldRule
  by_cases known : (acc.any fun folded => decide (folded.key = (rule.axis, rule.subject))) = true
  · rw [if_pos known]
    constructor
    · intro after member
      obtain ⟨folded, foldedIn, reads⟩ := List.mem_map.mp member
      exact (keeps.merged zoneName rule (entries.each folded foldedIn) reads).1
    intro declared member
    obtain ⟨folded, foldedIn, onFolded⟩ : ∃ folded ∈ acc, folded.rule.On declared := by
      rcases List.mem_append.mp member with earlier | last
      · exact entries.entry declared earlier
      obtain ⟨folded, foldedIn, same⟩ := List.any_eq_true.mp known
      rw [List.mem_singleton.mp last]
      exact ⟨folded, foldedIn, Folded.key_eq.mp (of_decide_eq_true same)⟩
    have kept := (keeps.merged zoneName rule (entries.each folded foldedIn) rfl).2
    exact ⟨_, List.mem_map_of_mem foldedIn, kept.trans onFolded⟩
  · rw [if_neg known]
    have fresh : ∀ declared ∈ read, ¬ declared.On rule := by
      intro declared member on
      obtain ⟨folded, foldedIn, onFolded⟩ := entries.entry declared member
      apply known
      exact List.any_eq_true.mpr ⟨folded, foldedIn, decide_eq_true (Folded.key_eq.mpr (onFolded.trans on))⟩
    constructor
    · intro folded member
      rcases List.mem_append.mp member with earlier | last
      · refine keeps.other (entries.each folded earlier) fun on => known ?_
        exact List.any_eq_true.mpr ⟨folded, earlier, decide_eq_true (Folded.key_eq.mpr on.symm)⟩
      · rw [List.mem_singleton.mp last]
        exact keeps.first fresh
    · intro declared member
      rcases List.mem_append.mp member with earlier | last
      · obtain ⟨folded, foldedIn, onFolded⟩ := entries.entry declared earlier
        exact ⟨folded, List.mem_append_left _ foldedIn, onFolded⟩
      · rw [List.mem_singleton.mp last]
        exact ⟨_, List.mem_append_right _ List.mem_cons_self, rfl, rfl⟩

theorem foldRules_entries (zoneName : String) (rules : List EffectiveZoneRestriction) (entries : Entries S read acc) :
    Entries S (read ++ rules) (rules.foldl (fun acc rule => foldRule parseFloat zoneName rule acc) acc) := by
  induction rules generalizing read acc with
  | nil => simpa using entries
  | cons rule rules ih =>
    rw [List.append_cons]
    exact ih (foldRule_entries keeps zoneName rule entries)

theorem foldChain_entries (chain : List Zone) : Entries S (declaredRules chain) (foldChain parseFloat chain) := by
  -- the zones that were folded stand before those that are left
  have folded : ∀ (zones : List Zone) (read : List EffectiveZoneRestriction) (acc : List Folded), Entries S read acc →
      Entries S (read ++ declaredRules zones) (zones.foldl (fun acc zone =>
        (declared zone).foldl (fun acc rule => foldRule parseFloat zone.name rule acc) acc) acc) := by
    intro zones
    induction zones with
    | nil => exact fun read acc entries => by simpa [declaredRules] using entries
    | cons zone zones ih =>
      intro read acc entries
      have first := ih _ _ (foldRules_entries keeps zone.name (declared zone) entries)
      rwa [List.append_assoc] at first
  exact folded chain [] [] ⟨by simp, by simp⟩

end

theorem foldChain_accounts (chain : List Zone) :
    Accounts parseFloat (declaredRules chain) (foldChain parseFloat chain) := by
  have keeps : FoldKeeps parseFloat (Summarises parseFloat) := ⟨.first, .other, .merge⟩
  exact ⟨(foldChain_entries keeps chain).each, (foldChain_entries keeps chain).entry⟩

def Folded.readBack (folded : Folded) : EffectiveZoneRestriction := folded.settle.rule.encoded

theorem mem_effectiveRules :
    rule ∈ effectiveRules parseFloat chain ↔ ∃ folded ∈ foldChain parseFloat chain, folded.readBack = rule := by
  simp [effectiveRules, resolveZoneRestrictions, Folded.readBack]

theorem readBack_on (folded : Folded) : folded.readBack.On folded.rule := by
  unfold Folded.readBack Folded.settle
  split_ifs <;> exact ⟨rfl, rfl⟩

theorem readBack_cases (folded : Folded) : folded.readBack.mode = .denied ∨
      folded.readBack = folded.rule ∧ folded.rule.allowed ≠ some [] ∨
        folded.rule.mode = .required ∧ folded.rule.allowed = some [] ∧
          folded.readBack = { folded.rule with allowed := none } := by
  unfold Folded.readBack Folded.settle EffectiveZoneRestriction.encoded
  by_cases empty : folded.rule.allowed = some []
  · cases mode : folded.rule.mode with
    | denied => simp [mode]
    | required => simp [mode, empty]
    | limited => simp [empty]
  · simp [empty]

section
variable {read : List EffectiveZoneRestriction} {folded : Folded} (summary : Summarises parseFloat read folded.rule)
include summary

theorem readBack_strict_iff :
    (∀ declared ∈ read, declared.On folded.rule → AtLeastAsStrict parseFloat folded.readBack declared) ↔
      (folded.rule.mode = .required → folded.rule.allowed ≠ some []) := by
  constructor
  · intro strict required empty
    -- what reads back permits every value, and the entry of the fold permits none
    have lifted : folded.rule.mode ≠ .denied := by simp [required]
    have back : folded.readBack = { folded.rule with allowed := none } := by
      rcases readBack_cases folded with denied | ⟨_, listed⟩ | ⟨_, _, back⟩
      · simp [Folded.readBack, Folded.settle, EffectiveZoneRestriction.encoded, required] at denied
      · exact absurd empty listed
      · exact back
    refine EffectiveZoneRestriction.exists_permits.mp ⟨"", (summary.permits lifted "").mpr ?_⟩ empty
    intro declared member on
    refine (strict declared member on).permits ?_ "" ?_
    · rwa [back]
    · rw [back]
      exact fun names listed => by simp at listed
  · intro kept declared member on
    rcases readBack_cases folded with denied | ⟨back, _⟩ | ⟨required, empty, _⟩
    · exact ⟨denied ▸ modeRank_le_denied _, fun lifted => absurd denied lifted, fun lifted => absurd denied lifted⟩
    · rw [back]
      exact ⟨summary.ranks declared member on, fun lifted => summary.bounds lifted declared member on,
        fun lifted value permits => (summary.permits lifted value).mp permits declared member on⟩
    · exact absurd empty (kept required)

theorem Summarises.required_iff :
    folded.rule.mode = .required ↔ (∃ declared ∈ read, declared.On folded.rule ∧ declared.mode = .required) ∧
      ∀ declared ∈ read, declared.On folded.rule → declared.mode ≠ .denied := by
  constructor
  · intro required
    obtain ⟨declared, member, on, mode⟩ := summary.named
    refine ⟨⟨declared, member, on, mode.trans required⟩, fun other otherIn onOther denied => ?_⟩
    have rank := summary.ranks other otherIn onOther
    rw [denied, required] at rank
    simp [modeRank] at rank
  rintro ⟨⟨declared, member, on, mode⟩, lifted⟩
  have rank := summary.ranks declared member on
  obtain ⟨other, otherIn, onOther, same⟩ := summary.named
  have undenied := lifted other otherIn onOther
  rw [same] at undenied
  cases settled : folded.rule.mode with
  | denied => exact absurd settled undenied
  | required => rfl
  | limited =>
    rw [mode, settled] at rank
    simp [modeRank] at rank

end

/-- The rules read back are as strict as every declared one exactly when each subject that
some zone requires and none denies has a value that all its allow-lists name. -/
theorem declared_rules_upheld_iff (parseFloat : String → Option ν) (chain : List Zone) :
    (∀ declared ∈ declaredRules chain, Upheld parseFloat (effectiveRules parseFloat chain) declared) ↔
      ∀ declared ∈ declaredRules chain, declared.mode = .required →
        (∀ other ∈ declaredRules chain, other.On declared → other.mode ≠ .denied) →
          ∃ value, ∀ other ∈ declaredRules chain, other.On declared → other.Permits value := by
  have accounts : Accounts parseFloat _ _ := foldChain_accounts chain
  constructor
  · intro upheld declared member required lifted
    obtain ⟨folded, foldedIn, on⟩ := accounts.entry declared member
    have summary := accounts.summary folded foldedIn
    have settled : folded.rule.mode = .required :=
      summary.required_iff.mpr ⟨⟨declared, member, on.symm, required⟩,
        fun other otherIn onOther => lifted other otherIn (onOther.trans on)⟩
    have strict : ∀ other ∈ declaredRules chain, other.On folded.rule →
        AtLeastAsStrict parseFloat folded.readBack other := by
      intro other otherIn onOther
      exact (upheld other otherIn).strict _ (mem_effectiveRules.mpr ⟨folded, foldedIn, rfl⟩)
        ((readBack_on folded).trans onOther.symm)
    have listed := (readBack_strict_iff summary).mp strict settled
    obtain ⟨value, permits⟩ := EffectiveZoneRestriction.exists_permits.mpr listed
    refine ⟨value, fun other otherIn onOther => ?_⟩
    exact (summary.permits (by simp [settled]) value).mp permits other otherIn (onOther.trans on.symm)
  · intro common declared member
    constructor
    · obtain ⟨folded, foldedIn, on⟩ := accounts.entry declared member
      exact ⟨_, mem_effectiveRules.mpr ⟨folded, foldedIn, rfl⟩, (readBack_on folded).trans on⟩
    intro rule ruleIn onRule
    obtain ⟨folded, foldedIn, rfl⟩ := mem_effectiveRules.mp ruleIn
    have summary := accounts.summary folded foldedIn
    have on : declared.On folded.rule := onRule.symm.trans (readBack_on folded)
    refine (readBack_strict_iff summary).mpr (fun required => ?_) declared member on
    obtain ⟨⟨other, otherIn, onOther, otherRequired⟩, lifted⟩ := summary.required_iff.mp required
    obtain ⟨value, permits⟩ := common other otherIn otherRequired
      fun third thirdIn onThird => lifted third thirdIn (onThird.trans onOther)
    rw [← EffectiveZoneRestriction.exists_permits]
    refine ⟨value, (summary.permits (by simp [required]) value).mpr fun third thirdIn onThird => ?_⟩
    exact permits third thirdIn (onThird.trans onOther.symm)

/-- Two zones allow different cameras and the zone inside them requires one. -/
def junction : List Zone :=
  [{ name := "site",
     spec := { restrictions := some { operating := [{ subject := "camera", mode := .limited, allowed := ["front"] }] } } },
   { name := "hall",
     spec := { parentZone := "site",
               restrictions := some
                 { operating := [{ subject := "camera", mode := .limited, allowed := ["rear"] }] } } },
   { name := "cell",
     spec := { parentZone := "hall",
               restrictions := some { operating := [{ subject := "camera", mode := .required }] } } }]

theorem required_camera_is_unlimited : effectiveRules String.toNat? junction =
        [{ axis := .operating, subject := "camera", mode := .required, inheritedFrom := "cell" }] ∧
      ¬ ∀ declared ∈ declaredRules junction, Upheld String.toNat? (effectiveRules String.toNat? junction) declared := by
  have effective : effectiveRules String.toNat? junction =
      [{ axis := .operating, subject := "camera", mode := .required, inheritedFrom := "cell" }] := by
    decide +kernel
  refine ⟨effective, fun upheld => ?_⟩
  have site : { axis := .operating, subject := "camera", mode := .limited, allowed := some ["front"],
                inheritedFrom := "site" } ∈ declaredRules junction := by decide +kernel
  have strict := (upheld _ site).strict _ List.mem_cons_self ⟨rfl, rfl⟩
  have front := strict.permits (by decide) "rear" nofun ["front"] rfl
  simp at front

end Swarmada.ZoneController
