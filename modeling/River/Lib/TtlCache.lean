/-
  A cache that keeps positive and negative results for different times.
-/

import River.Lib.Sourced

namespace River.Lib

open Function

structure Ttl where
  positive : Nat
  negative : Nat

def Ttl.of (ttl : Ttl) : Bool → Nat
  | true => ttl.positive
  | false => ttl.negative

structure CacheEntry (ι ρ : Type) where
  result : ρ
  timestamp : Nat
  sources : List ι

structure TtlCache (κ ι ρ : Type) where
  positive : κ → Option (CacheEntry ι ρ)
  negative : κ → Option (CacheEntry ι ρ)

namespace TtlCache

variable {κ ι ρ : Type}

def empty : TtlCache κ ι ρ := ⟨fun _ => none, fun _ => none⟩

def side (cache : TtlCache κ ι ρ) : Bool → κ → Option (CacheEntry ι ρ)
  | true => cache.positive
  | false => cache.negative

def evict (keep : Bool → κ → Bool) (cache : TtlCache κ ι ρ) : TtlCache κ ι ρ where
  positive k := if keep true k then cache.positive k else none
  negative k := if keep false k then cache.negative k else none

variable [DecidableEq κ]

def fresh (ttl now : Nat) (key : κ) (entries : κ → Option (CacheEntry ι ρ)) :
    (κ → Option (CacheEntry ι ρ)) × Option (CacheEntry ι ρ) :=
  match entries key with
  | none => (entries, none)
  | some entry =>
    if now - entry.timestamp < ttl then (entries, some entry)
    else (update entries key none, none)

def lookup (ttl : Ttl) (now : Nat) (key : κ) (cache : TtlCache κ ι ρ) :
    TtlCache κ ι ρ × Option (CacheEntry ι ρ) :=
  match fresh ttl.positive now key cache.positive with
  | (positive, some entry) => ({ cache with positive := positive }, some entry)
  | (positive, none) =>
    let (negative, entry) := fresh ttl.negative now key cache.negative
    (⟨positive, negative⟩, entry)

def store (now : Nat) (key : κ) (sign : Bool) (result : ρ) (sources : List ι)
    (cache : TtlCache κ ι ρ) : TtlCache κ ι ρ :=
  if sign then { cache with positive := update cache.positive key (some ⟨result, now, sources⟩) }
  else { cache with negative := update cache.negative key (some ⟨result, now, sources⟩) }

/-! ## Properties of all entries -/

def Holds (P : Bool → κ → CacheEntry ι ρ → Prop) (cache : TtlCache κ ι ρ) : Prop :=
  ∀ sign key, ∀ entry ∈ cache.side sign key, P sign key entry

variable {P : Bool → κ → CacheEntry ι ρ → Prop} {cache cache' : TtlCache κ ι ρ} {ttl : Ttl}
  {now : Nat} {key : κ} {entry : CacheEntry ι ρ}

omit [DecidableEq κ] in
theorem holds_empty : Holds P (empty : TtlCache κ ι ρ) := by
  intro sign key entry hentry
  cases sign <;> cases hentry

omit [DecidableEq κ] in
theorem Holds.of_subset (h : Holds P cache)
    (hsub : ∀ sign key, ∀ entry ∈ cache'.side sign key, entry ∈ cache.side sign key) :
    Holds P cache' :=
  fun sign key entry hentry => h sign key entry (hsub sign key entry hentry)

omit [DecidableEq κ] in
theorem Holds.evict (h : Holds P cache) (keep : Bool → κ → Bool) : Holds P (cache.evict keep) := by
  refine h.of_subset fun sign key entry hentry => ?_
  cases sign with
  | true =>
    change entry ∈ (if keep true key then cache.positive key else none) at hentry
    split at hentry
    · exact hentry
    · cases hentry
  | false =>
    change entry ∈ (if keep false key then cache.negative key else none) at hentry
    split at hentry
    · exact hentry
    · cases hentry

section Fresh

variable {entries : κ → Option (CacheEntry ι ρ)} {ttl' : Nat}

theorem fresh_subset (ttl' now : Nat) (key : κ) (entries : κ → Option (CacheEntry ι ρ)) (key' : κ) :
    ∀ entry ∈ (fresh ttl' now key entries).1 key', entry ∈ entries key' := by
  intro entry hentry
  unfold fresh at hentry
  split at hentry
  · exact hentry
  split at hentry
  · exact hentry
  change entry ∈ update entries key none key' at hentry
  by_cases hkey : key' = key
  · subst hkey
    rw [update_self] at hentry
    cases hentry
  · rw [update_of_ne hkey] at hentry
    exact hentry

theorem fresh_some (h : (fresh ttl' now key entries).2 = some entry) :
    entry ∈ entries key ∧ now - entry.timestamp < ttl' := by
  unfold fresh at h
  split at h
  · cases h
  rename_i found hfound
  split at h
  · rename_i hage
    cases h
    exact ⟨hfound, hage⟩
  · cases h

end Fresh

theorem Holds.lookup (h : Holds P cache) (ttl : Ttl) (now : Nat) (key : κ) :
    Holds P (cache.lookup ttl now key).1 := by
  refine h.of_subset fun sign key' entry hentry => ?_
  have hpositives := fresh_subset ttl.positive now key cache.positive key' entry
  have hnegatives := fresh_subset ttl.negative now key cache.negative key' entry
  unfold TtlCache.lookup at hentry
  rcases hpositive : fresh ttl.positive now key cache.positive with ⟨_, _ | _⟩
  · rw [hpositive] at hentry hpositives
    cases sign with
    | true => exact hpositives hentry
    | false => exact hnegatives hentry
  · rw [hpositive] at hentry hpositives
    cases sign with
    | true => exact hpositives hentry
    | false => exact hentry

theorem lookup_some (h : (cache.lookup ttl now key).2 = some entry) :
    ∃ sign, entry ∈ cache.side sign key ∧ now - entry.timestamp < ttl.of sign := by
  unfold lookup at h
  rcases hpositive : fresh ttl.positive now key cache.positive with ⟨_, _ | _⟩
  · rw [hpositive] at h
    exact ⟨false, fresh_some h⟩
  rw [hpositive] at h
  cases h
  have hfound : (fresh ttl.positive now key cache.positive).2 = some entry := by rw [hpositive]
  exact ⟨true, fresh_some hfound⟩

theorem Holds.store {result : ρ} {sources : List ι} (h : Holds P cache)
    (hnew : P sign key ⟨result, now, sources⟩) :
    Holds P (cache.store now key sign result sources) := by
  intro sign' key' entry hentry
  have hupdate : ∀ entries : κ → Option (CacheEntry ι ρ),
      (∀ e ∈ entries key', P sign key' e) →
      entry ∈ update entries key (some ⟨result, now, sources⟩) key' →
      P sign key' entry := by
    intro entries hentries hentry
    by_cases hkey : key' = key
    · subst hkey
      rw [update_self] at hentry
      cases hentry
      exact hnew
    · rw [update_of_ne hkey] at hentry
      exact hentries entry hentry
  cases sign with
  | true =>
    cases sign' with
    | true => exact hupdate cache.positive (h true key') hentry
    | false => exact h false key' entry hentry
  | false =>
    cases sign' with
    | true => exact h true key' entry hentry
    | false => exact hupdate cache.negative (h false key') hentry

end TtlCache

/-! ## A computation behind a cache -/

structure CacheField (σ κ ι ρ : Type) where
  get : σ → TtlCache κ ι ρ
  set : TtlCache κ ι ρ → σ → σ

section Execute

variable {σ κ ι ε ρ : Type} [DecidableEq κ]

def executeUsingCache (field : CacheField σ κ ι ρ) (ttl : Ttl) (now : Nat) (isAllowed : ρ → Bool)
    (key : κ) (onMiss : Sourced ι σ ε ρ) : Sourced ι σ ε ρ := fun s =>
  match (field.get s).lookup ttl now key with
  | (cache, some entry) => (⟨.ok entry.result, entry.sources⟩, field.set cache s)
  | (cache, none) =>
    match onMiss (field.set cache s) with
    | (⟨.error e, sources⟩, s') => (⟨.error e, sources⟩, s')
    | (⟨.ok result, sources⟩, s') =>
      (⟨.ok result, sources⟩,
        field.set ((field.get s').store now key (isAllowed result) result sources) s')

variable {field : CacheField σ κ ι ρ} {ttl : Ttl} {now : Nat} {isAllowed : ρ → Bool} {key : κ}
  {onMiss : Sourced ι σ ε ρ} {I J : σ → Prop} {Q Q' : Except ε ρ → List ι → Prop}

theorem executeUsingCache_of (hs : I s)
    (hlookup : ∀ s, I s → I (field.set ((field.get s).lookup ttl now key).1 s))
    (hhit : ∀ sign, ∀ entry ∈ (field.get s).side sign key, now - entry.timestamp < ttl.of sign →
      Q' (.ok entry.result) entry.sources)
    (hnone : ((field.get s).lookup ttl now key).2 = none →
      J (field.set ((field.get s).lookup ttl now key).1 s))
    (hmiss : Sourced.Ensures J onMiss Q) (hQ : ∀ r l, Q r l → Q' r l) (hJ : ∀ s, J s → I s)
    (hstore : ∀ s r l, I s → Q (.ok r) l →
      I (field.set ((field.get s).store now key (isAllowed r) r l) s)) :
    let (outcome, s') := executeUsingCache field ttl now isAllowed key onMiss s
    Q' outcome.result outcome.sources ∧ I s' := by
  have hcleaned := hlookup s hs
  unfold executeUsingCache
  rcases hfound : (field.get s).lookup ttl now key with ⟨cache, _ | entry⟩
  · rw [hfound] at hcleaned hnone
    obtain ⟨hresult, hafter⟩ := hmiss _ (hnone rfl)
    simp only
    rcases hrun : onMiss (field.set cache s) with ⟨⟨e | _, _⟩, s'⟩
    · rw [hrun] at hresult hafter
      exact ⟨hQ _ _ hresult, hJ _ hafter⟩
    · rw [hrun] at hresult hafter
      exact ⟨hQ _ _ hresult, hstore _ _ _ (hJ _ hafter) hresult⟩
  · rw [hfound] at hcleaned
    obtain ⟨sign, hmem, hage⟩ := TtlCache.lookup_some (by rw [hfound])
    exact ⟨hhit sign entry hmem hage, hcleaned⟩

theorem ensures_executeUsingCache
    (hlookup : ∀ s, I s → I (field.set ((field.get s).lookup ttl now key).1 s))
    (hhit : ∀ s, I s → ∀ sign, ∀ entry ∈ (field.get s).side sign key,
      now - entry.timestamp < ttl.of sign → Q' (.ok entry.result) entry.sources)
    (hmiss : Sourced.Ensures I onMiss Q) (hQ : ∀ r l, Q r l → Q' r l)
    (hstore : ∀ s r l, I s → Q (.ok r) l →
      I (field.set ((field.get s).store now key (isAllowed r) r l) s)) :
    Sourced.Ensures I (executeUsingCache field ttl now isAllowed key onMiss) Q' :=
  fun s hs => executeUsingCache_of hs hlookup (hhit s hs) (fun _ => hlookup s hs) hmiss hQ
    (fun _ hs => hs) hstore

end Execute

end River.Lib
