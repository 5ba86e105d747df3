/-
  The on-chain configuration and the view that a node has of it
  (contracts/src/river/registry/facets/config/RiverConfig.sol, core/node/crypto/config.go).
-/

import River.Lib.Machine
import River.Lib.Versions
import River.Node.Base

namespace River.Node

open Lib.Versions List Lib.Machine Function Lib.EnumerableSet

variable {κ : Type} [DecidableEq κ]

/-! ## The contract -/

structure RiverConfig (κ : Type) where
  configurationKeys : Lib.EnumerableSet κ
  configuration : κ → List (Nat × Bytes)

structure ConfigurationChanged (κ : Type) where
  key : κ
  block : Nat
  value : Bytes
  deleted : Bool

inductive ConfigCall (κ : Type) where
  | setConfiguration (key : κ) (blockNumber : Nat) (value : Bytes)
  | deleteConfiguration (key : κ)
  | deleteConfigurationOnBlock (key : κ) (blockNumber : Nat)

structure ConfigTx (κ : Type) where
  isConfigurationManager : Bool
  call : ConfigCall κ

inductive ConfigRevert where
  | badAuth | badArg | notFound

namespace RiverConfig

/-- The loop of `deleteConfigurationOnBlock`. It goes on after it has taken a setting out. -/
def deleteLoop (blockNumber : Nat) :
    (fuel i : Nat) → List (Nat × Bytes) → Bool → List (Nat × Bytes) × Bool
  | 0, _, settings, found => (settings, found)
  | fuel + 1, i, settings, found =>
    match settings[i]? with
    | none => (settings, found)
    | some setting =>
      if setting.1 = blockNumber then
        deleteLoop blockNumber fuel (i + 1) (Lib.swapRemoveAt settings i) true
      else deleteLoop blockNumber fuel (i + 1) settings found

def run (c : RiverConfig κ) (tx : ConfigTx κ) :
    Except ConfigRevert (RiverConfig κ × ConfigurationChanged κ) :=
  if tx.isConfigurationManager = false then .error .badAuth
  else
    match tx.call with
    | .setConfiguration key blockNumber value =>
      if value = [] then .error .badArg
      else .ok ({
        configurationKeys := c.configurationKeys.add key
        configuration := update c.configuration key
          (put (c.configuration key) blockNumber value) }, ⟨key, blockNumber, value, false⟩)
    | .deleteConfiguration key =>
      if key ∈ c.configurationKeys then
        .ok ({
          configurationKeys := c.configurationKeys.remove key
          configuration := update c.configuration key [] }, ⟨key, 0, [], true⟩)
      else .error .notFound
    | .deleteConfigurationOnBlock key blockNumber =>
      let settings := c.configuration key
      match deleteLoop blockNumber settings.length 0 settings false with
      | (_, false) => .error .notFound
      | (left, true) =>
        .ok ({ c with configuration := update c.configuration key left },
          ⟨key, blockNumber, [], true⟩)

def getAllConfiguration (c : RiverConfig κ) : List (κ × Nat × Bytes) :=
  c.configurationKeys.values.flatMap fun key => (c.configuration key).map (key, ·)

def step (c : RiverConfig κ) (tx : ConfigTx κ) : RiverConfig κ × List (ConfigurationChanged κ) :=
  match c.run tx with
  | .ok (c', e) => (c', [e])
  | .error _ => (c, [])

def empty : RiverConfig κ := ⟨.empty, fun _ => []⟩

end RiverConfig

open RiverConfig

/-- The configuration contract. -/
def riverConfigMachine (κ : Type) [DecidableEq κ] :
    Lib.Machine (RiverConfig κ) (ConfigTx κ) (List (ConfigurationChanged κ)) := ⟨step⟩

/-! ## The node -/

abbrev OnChainSettings (κ : Type) := κ → List (Nat × Bytes)

inductive ConfigError where
  | notFound | badConfig
  deriving DecidableEq

section

variable {α : Type} (unpack : Bytes → Option α)

/-- A value that `abi.Arguments` can unpack, or `BAD_CONFIG`. -/
def settingValue (value : Bytes) : Except ConfigError α :=
  match unpack value with
  | some i => .ok i
  | none => .error .badConfig

theorem settingValue_ne_notFound (value : Bytes) :
    settingValue unpack value ≠ .error .notFound := by
  unfold settingValue
  split
  all_goals simp

end

namespace OnChainSettings

def remove (view : OnChainSettings κ) (key : κ) (activeOnBlockNumber : Nat) : OnChainSettings κ :=
  update view key (Lib.Versions.remove (view key) activeOnBlockNumber)

def set (view : OnChainSettings κ) (key : κ) (activeOnBlockNumber : Nat) (value : Bytes) :
    OnChainSettings κ :=
  update view key (putSorted (view key) activeOnBlockNumber value)

def onConfigChanged (view : OnChainSettings κ) (e : ConfigurationChanged κ) : OnChainSettings κ :=
  if e.deleted = true then view.remove e.key e.block else view.set e.key e.block e.value

def load (c : RiverConfig κ) : OnChainSettings κ :=
  c.getAllConfiguration.foldl (fun view s => view.set s.1 s.2.1 s.2.2) fun _ => []

def getOnBlock (view : OnChainSettings κ) (key : κ) (blockNumber : Nat) : Option (Nat × Bytes) :=
  active (view key) blockNumber

/-- `GetUint64OnBlock` and `GetInt64OnBlock`, which unpack different types. -/
def getOnBlockAs {α : Type} (unpack : Bytes → Option α) (view : OnChainSettings κ)
    (blockNumber : Nat) (key : κ) : Except ConfigError α :=
  match view.getOnBlock key blockNumber with
  | none => .error .notFound
  | some setting => settingValue unpack setting.2

def getUint64OnBlock (unpackUint64 : Bytes → Option Nat) (view : OnChainSettings κ) :
    Nat → κ → Except ConfigError Nat := getOnBlockAs unpackUint64 view

def getInt64OnBlock (unpackInt64 : Bytes → Option Int) (view : OnChainSettings κ) :
    Nat → κ → Except ConfigError Int := getOnBlockAs unpackInt64 view

end OnChainSettings

open OnChainSettings

/-- A node's view of the settings. -/
def settingsMachine (κ : Type) [DecidableEq κ] :
    Lib.Machine (OnChainSettings κ) (ConfigurationChanged κ) Unit :=
  ⟨fun view e => (view.onConfigChanged e, ())⟩

/-! ## Settings as a function -/

abbrev Cells (κ : Type) := κ → Nat → Option Bytes

def ConfigurationChanged.apply (f : Cells κ) (e : ConfigurationChanged κ) : Cells κ :=
  update f e.key
    (update (f e.key) e.block (if e.deleted = true then none else some e.value))

theorem apply_self (f : Cells κ) (e : ConfigurationChanged κ) :
    e.apply f e.key e.block = if e.deleted = true then none else some e.value := by
  rw [ConfigurationChanged.apply, update_self, update_self]

theorem apply_of_ne {e : ConfigurationChanged κ} {key : κ} {block : Nat}
    (h : (key, block) ≠ (e.key, e.block)) : e.apply f key block = f key block := by
  rw [ConfigurationChanged.apply]
  by_cases hkey : key = e.key
  · subst hkey
    rw [update_self, update_of_ne]
    rintro rfl
    exact h rfl
  · rw [update_of_ne hkey]

theorem foldl_apply_of_untouched {events : List (ConfigurationChanged κ)} {key : κ} {block : Nat}
    (h : ∀ e ∈ events, (key, block) ≠ (e.key, e.block)) (f : Cells κ) :
    events.foldl ConfigurationChanged.apply f key block = f key block := by
  induction events generalizing f with
  | nil => rfl
  | cons e events ih =>
    rw [foldl_cons, ih fun e he => h e (mem_cons_of_mem _ he)]
    exact apply_of_ne (h e mem_cons_self)

theorem foldl_apply_congr {events : List (ConfigurationChanged κ)} {f g : Cells κ}
    (h : ∀ key block, (∀ e ∈ events, (key, block) ≠ (e.key, e.block)) → f key block = g key block) :
    events.foldl ConfigurationChanged.apply f = events.foldl ConfigurationChanged.apply g := by
  induction events generalizing f g with
  | nil =>
    funext key block
    exact h key block fun e he => absurd he not_mem_nil
  | cons e events ih =>
    refine ih fun key block hother => ?_
    by_cases hcell : (key, block) = (e.key, e.block)
    · cases hcell
      rw [apply_self, apply_self]
    rw [apply_of_ne hcell, apply_of_ne hcell]
    refine h key block fun e' he' => ?_
    rcases mem_cons.1 he' with rfl | he'
    · exact hcell
    · exact hother e' he'

theorem replay_idempotent (events : List (ConfigurationChanged κ)) (f : Cells κ) :
    events.foldl ConfigurationChanged.apply (events.foldl ConfigurationChanged.apply f)
      = events.foldl ConfigurationChanged.apply f :=
  foldl_apply_congr fun _ _ h => foldl_apply_of_untouched h f

/-! ## The contract holds a function -/

namespace RiverConfig

variable {c c' : RiverConfig κ} {f : Cells κ}

structure Holds (c : RiverConfig κ) (f : Cells κ) : Prop where
  reads : ∀ key, Reads (c.configuration key) (f key)
  keys : ∀ key, c.configuration key ≠ [] → key ∈ c.configurationKeys

omit [DecidableEq κ] in
theorem holds_empty : Holds (empty : RiverConfig κ) fun _ _ => none :=
  ⟨fun _ => reads_nil, fun _ h => absurd rfl h⟩

/-- A key that is deleted has settings at block 0 only. -/
def DeletesAtZero (c : RiverConfig κ) (tx : ConfigTx κ) : Prop :=
  match tx.call with
  | .deleteConfiguration key => ∀ s ∈ c.configuration key, s.1 = 0
  | _ => True

instance (c : RiverConfig κ) (tx : ConfigTx κ) : Decidable (c.DeletesAtZero tx) :=
  match tx with
  | ⟨_, .deleteConfiguration key⟩ =>
    inferInstanceAs (Decidable (∀ s ∈ c.configuration key, s.1 = 0))
  | ⟨_, .setConfiguration ..⟩ | ⟨_, .deleteConfigurationOnBlock ..⟩ => .isTrue trivial

def Kept (c : RiverConfig κ) : Prop := ∀ key ∈ c.configurationKeys, c.configuration key ≠ []

/-- A setting of a key is only deleted if the key has one at another block. -/
def KeepsSetting (c : RiverConfig κ) (tx : ConfigTx κ) : Prop :=
  ∀ key blockNumber, tx.call = .deleteConfigurationOnBlock key blockNumber →
    (∃ s ∈ c.configuration key, s.1 = blockNumber) → ∃ s ∈ c.configuration key, s.1 ≠ blockNumber

theorem deleteLoop_of_absent {settings : List (Nat × Bytes)} {i : Nat}
    (h : ∀ s ∈ settings, s.1 ≠ n) (fuel : Nat) (found : Bool) :
    deleteLoop n fuel i settings found = (settings, found) := by
  induction fuel generalizing i with
  | zero => rfl
  | succ fuel ih =>
    unfold deleteLoop
    split
    · rfl
    · rename_i setting hsetting
      rw [if_neg (h setting (mem_of_getElem? hsetting)), ih]

theorem deleteLoop_eq {settings : List (Nat × Bytes)} (hdistinct : (settings.map Prod.fst).Nodup)
    {fuel i : Nat} (hfuel : settings.length ≤ fuel + i) (hbefore : ∀ s ∈ settings.take i, s.1 ≠ n) :
    deleteLoop n fuel i settings false = (remove settings n, (indexOf settings n).isSome) := by
  have hnone : (∀ s ∈ settings, s.1 ≠ n) →
      (settings, false) = (remove settings n, (indexOf settings n).isSome) := by
    intro habsent
    have hindex : indexOf settings n = none := findIdx?_eq_none_iff.2 (by simpa using habsent)
    rw [Lib.Versions.remove, hindex]
    rfl
  induction fuel generalizing i with
  | zero =>
    rw [take_of_length_le (by omega)] at hbefore
    exact hnone hbefore
  | succ fuel ih =>
    unfold deleteLoop
    split
    · rename_i hend
      exact hnone (take_of_length_le (getElem?_eq_none_iff.1 hend) ▸ hbefore)
    rename_i setting hsetting
    obtain ⟨hi, hget⟩ := List.getElem?_eq_some_iff.1 hsetting
    split
    · rename_i hn
      have hindex : indexOf settings n = some i := by
        refine findIdx?_eq_some_iff_getElem.2 ⟨hi, by simpa [hget] using hn, fun j hj => ?_⟩
        simpa using hbefore _ (mem_take_iff_getElem.2 ⟨j, by omega, rfl⟩)
      -- no other setting has this block number
      have hleft : ∀ s ∈ Lib.swapRemoveAt settings i, s.1 ≠ n := by
        intro s hs
        have hperm := (getElem_cons_eraseIdx_perm hi).map Prod.fst
        have hfresh := (nodup_cons.1 (hperm.nodup_iff.2 hdistinct)).1
        rw [hget, hn] at hfresh
        exact fun heq => hfresh (heq ▸ mem_map_of_mem ((Lib.swapRemoveAt_perm hi).subset hs))
      rw [deleteLoop_of_absent hleft, Lib.Versions.remove, hindex]
      rfl
    · rename_i hn
      refine ih (by omega) fun s hs => ?_
      rw [take_succ_eq_append_getElem hi, mem_append, mem_singleton] at hs
      rcases hs with hs | rfl
      · exact hbefore s hs
      · rwa [hget]

omit [DecidableEq κ] in
theorem Holds.deleteLoop_eq (h : Holds c f) (key : κ) (n : Nat) :
    deleteLoop n (c.configuration key).length 0 (c.configuration key) false =
      (remove (c.configuration key) n, (indexOf (c.configuration key) n).isSome) :=
  RiverConfig.deleteLoop_eq (h.reads key).distinct (Nat.le_refl _) (by simp)

theorem Kept.update (h : c.Kept) {key : κ} {l : List (Nat × Bytes)} {keys : Lib.EnumerableSet κ}
    (hkey : key ∈ keys → l ≠ []) (hkeys : ∀ k ∈ keys, k ≠ key → k ∈ c.configurationKeys) :
    Kept ⟨keys, update c.configuration key l⟩ :=
  (forall_update_iff c.configuration fun k l => k ∈ keys → l ≠ []).2
    ⟨hkey, fun k hne hk => h k (hkeys k hk hne)⟩

theorem Holds.update (h : Holds c f) (key : κ) (keys : Lib.EnumerableSet κ) (hreads : Reads l g)
    (hkey : l ≠ [] → key ∈ keys) (hkeys : ∀ k, k ≠ key → k ∈ c.configurationKeys → k ∈ keys) :
    Holds ⟨keys, update c.configuration key l⟩ (update f key g) := by
  refine ⟨fun k => ?_, (forall_update_iff c.configuration fun k l => l ≠ [] → k ∈ keys).2
    ⟨hkey, fun k hne hk => hkeys k hne (h.keys k hk)⟩⟩
  by_cases heq : k = key
  · subst heq
    simp only [update_self]
    exact hreads
  · simp only [update_of_ne heq]
    exact h.reads k

theorem Holds.run (h : Holds c f) {e : ConfigurationChanged κ} (hrun : c.run tx = .ok (c', e)) :
    (∃ g, Holds c' g) ∧ (c.DeletesAtZero tx → Holds c' (e.apply f)) ∧
      (c.KeepsSetting tx → c.Kept → c'.Kept) := by
  unfold RiverConfig.run at hrun
  split at hrun
  · cases hrun
  split at hrun
  · rename_i key blockNumber value hcall
    split at hrun
    · cases hrun
    cases hrun
    have hholds := h.update key (c.configurationKeys.add key) ((h.reads key).put blockNumber value)
      (fun _ => mem_add.2 (.inr rfl))
      (fun k _ hk => mem_add.2 (.inl hk))
    refine ⟨⟨_, hholds⟩, fun _ => hholds, fun _ hkept => ?_⟩
    have hput := ((h.reads key).put blockNumber value).mem blockNumber value
    rw [update_self] at hput
    exact hkept.update (fun _ => ne_nil_of_mem (hput.2 rfl))
      fun k hk hne => (mem_add.1 hk).resolve_right hne
  · rename_i key hcall
    split at hrun
    swap
    · cases hrun
    cases hrun
    have hholds := h.update key (c.configurationKeys.remove key) reads_nil
      (fun hne => absurd rfl hne) (fun k hne hk => mem_remove.2 ⟨hk, hne⟩)
    refine ⟨⟨_, hholds⟩, fun hzero => ?_, fun _ hkept => hkept.update
      (fun hk => absurd rfl (mem_remove.1 hk).2)
      fun k hk _ => (mem_remove.1 hk).1⟩
    rw [DeletesAtZero, hcall] at hzero
    -- nothing is held at other blocks than 0
    have hnone : Function.update (f key) 0 none = fun _ => none := by
      funext block
      by_cases hblock : block = 0
      · rw [hblock, update_self]
      rw [update_of_ne hblock]
      cases hvalue : f key block with
      | none => rfl
      | some value => exact absurd (hzero _ (((h.reads key).mem block value).2 hvalue)) hblock
    rw [ConfigurationChanged.apply]
    simp only [if_true]
    rw [hnone]
    exact hholds
  · rename_i key blockNumber hcall
    have hremove := (h.reads key).remove blockNumber
    simp only [h.deleteLoop_eq] at hrun
    cases hindex : indexOf (c.configuration key) blockNumber with
    | none => simp [hindex] at hrun
    | some i =>
      simp only [hindex] at hrun
      cases hrun
      obtain ⟨hlt, hn⟩ := lt_length_of_indexOf hindex
      have hholds := h.update key c.configurationKeys hremove
        (fun _ => h.keys _ (ne_nil_of_length_pos (Nat.zero_lt_of_lt hlt))) (fun _ _ => id)
      refine ⟨⟨_, hholds⟩, fun _ => hholds, fun hkeeps hkept => hkept.update (fun _ => ?_)
        fun k hk _ => hk⟩
      obtain ⟨s, hs, hother⟩ := hkeeps key blockNumber hcall ⟨_, getElem_mem hlt, hn⟩
      refine ne_nil_of_mem ((hremove.mem s.1 s.2).2 ?_)
      rw [update_of_ne hother]
      exact ((h.reads key).mem s.1 s.2).1 hs

theorem Holds.step (h : Holds c f) (tx : ConfigTx κ) :
    (∃ g, Holds (c.step tx).1 g) ∧
      (c.DeletesAtZero tx →
        Holds (c.step tx).1 ((c.step tx).2.foldl ConfigurationChanged.apply f)) ∧
      (c.KeepsSetting tx → c.Kept → (c.step tx).1.Kept) := by
  cases hrun : c.run tx with
  | ok r =>
    simp only [RiverConfig.step, hrun]
    exact h.run hrun
  | error r =>
    simp only [RiverConfig.step, hrun]
    exact ⟨⟨f, h⟩, fun _ => h, fun _ hkept => hkept⟩

theorem Holds.exec (h : Holds c f) (txs : List (ConfigTx κ)) :
    ∃ g, Holds ((riverConfigMachine κ).exec c txs) g :=
  exec_invariant (I := fun c => ∃ g, Holds c g) (fun _ tx ⟨_, h⟩ => (h.step tx).1) ⟨f, h⟩ txs

theorem Holds.events (h : Holds c f) (hzero : (riverConfigMachine κ).Along DeletesAtZero c txs) :
    Holds ((riverConfigMachine κ).exec c txs)
      (((riverConfigMachine κ).collect (riverConfigMachine κ).out c txs).foldl
        ConfigurationChanged.apply f) := by
  induction txs generalizing c f with
  | nil => exact h
  | cons tx txs ih =>
    rw [collect_cons, foldl_append]
    exact ih ((h.step tx).2.1 hzero.1) hzero.2

theorem kept_exec (hkeeps : (riverConfigMachine κ).Along KeepsSetting .empty txs) :
    ((riverConfigMachine κ).exec .empty txs).Kept :=
  (exec_invariant_along (I := fun c => (∃ f, Holds c f) ∧ Kept c)
    (fun _ tx ⟨⟨_, h⟩, hkept⟩ hkeeps => ⟨(h.step tx).1, (h.step tx).2.2 hkeeps hkept⟩)
    ⟨⟨_, holds_empty⟩, fun key hkey => absurd hkey (not_mem_empty key)⟩ hkeeps).2

def configurationExists (c : RiverConfig κ) (key : κ) : Bool := decide (key ∈ c.configurationKeys)

section Holds

variable (h : Holds c f)

include h

omit [DecidableEq κ] in
theorem Holds.nodup_getAllConfiguration : c.getAllConfiguration.Nodup := by
  refine nodup_flatMap.2 ⟨fun key _ => ?_, c.configurationKeys.nodup.imp fun hne => ?_⟩
  · exact ((h.reads key).distinct.of_map _).map fun _ _ heq => (Prod.mk.inj heq).2
  · simp only [disjoint_left, mem_map]
    rintro _ ⟨s, -, rfl⟩ ⟨t, -, heq⟩
    exact hne (Prod.mk.inj heq).1.symm

omit [DecidableEq κ] in
theorem Holds.mem_getAllConfiguration (key : κ) (setting : Nat × Bytes) :
    (key, setting) ∈ c.getAllConfiguration ↔ setting ∈ c.configuration key := by
  simp only [getAllConfiguration, mem_flatMap, mem_map, Prod.mk.injEq]
  constructor
  · rintro ⟨_, -, _, hs, rfl, rfl⟩
    exact hs
  · exact fun hs => ⟨key, h.keys key (ne_nil_of_mem hs), setting, hs, rfl, rfl⟩

theorem Holds.mem_deleteConfigurationOnBlock (key k : κ) (blockNumber : Nat) (s : Nat × Bytes) :
    s ∈ (c.step ⟨true, .deleteConfigurationOnBlock key blockNumber⟩).1.configuration k ↔
      s ∈ c.configuration k ∧ ¬(k = key ∧ s.1 = blockNumber) := by
  have hstep : (c.step ⟨true, .deleteConfigurationOnBlock key blockNumber⟩).1.configuration =
      Function.update c.configuration key (remove (c.configuration key) blockNumber) := by
    simp only [RiverConfig.step, RiverConfig.run, h.deleteLoop_eq]
    cases hindex : indexOf (c.configuration key) blockNumber with
    | none =>
      rw [Lib.Versions.remove, hindex]
      exact (update_eq_self key c.configuration).symm
    | some i => rfl
  rw [hstep]
  by_cases hk : k = key
  · subst hk
    rw [update_self, ((h.reads k).remove blockNumber).mem, (h.reads k).mem]
    grind
  · simp [hk]

end Holds

end RiverConfig

/-! ## The view holds the same function -/

namespace OnChainSettings

variable {view : OnChainSettings κ} {f : Cells κ}

def Views (view : OnChainSettings κ) (f : Cells κ) : Prop :=
  ∀ key, Reads (view key) (f key) ∧ Ordered (view key)

/-- At most one setting is after a removed one. -/
def RemovesLate (view : OnChainSettings κ) (e : ConfigurationChanged κ) : Prop :=
  e.deleted = true → e.block ∈ (view e.key).map Prod.fst →
    ∀ s ∈ view e.key, ∀ t ∈ view e.key, e.block < s.1 → e.block < t.1 → s = t

instance (view : OnChainSettings κ) (e : ConfigurationChanged κ) : Decidable (view.RemovesLate e) :=
  inferInstanceAs (Decidable (_ → _ → ∀ s ∈ view e.key, ∀ t ∈ view e.key, _ → _ → s = t))

theorem Views.update (h : view.Views f) (hreads : Reads l g) (hordered : Ordered l) :
    Views (update view key l) (update f key g) := by
  intro k
  by_cases heq : k = key
  · subst heq
    rw [update_self, update_self]
    exact ⟨hreads, hordered⟩
  · rw [update_of_ne heq, update_of_ne heq]
    exact h k

theorem Views.onConfigChanged (h : view.Views f) (hlate : view.RemovesLate e) :
    (view.onConfigChanged e).Views (e.apply f) := by
  unfold OnChainSettings.onConfigChanged ConfigurationChanged.apply
  split
  · rename_i hdeleted
    exact h.update ((h e.key).1.remove _) ((h e.key).2.remove (hlate hdeleted))
  · exact h.update ((h e.key).1.putSorted _ _) (.putSorted (h e.key).1 (h e.key).2 _ _)

theorem Views.events (h : view.Views f) {events : List (ConfigurationChanged κ)}
    (hlate : (settingsMachine κ).Along RemovesLate view events) :
    ((settingsMachine κ).exec view events).Views (events.foldl ConfigurationChanged.apply f) := by
  induction events generalizing view f with
  | nil => exact h
  | cons e events ih => exact ih (h.onConfigChanged hlate.1) hlate.2

theorem reads_load {f : Nat → Option Bytes} (h : Reads l f) :
    Reads (l.foldl (fun l s => putSorted l s.1 s.2) []) f ∧
      Ordered (l.foldl (fun l s => putSorted l s.1 s.2) []) := by
  induction l using reverseRecOn generalizing f with
  | nil => exact ⟨h, .nil⟩
  | append_singleton front s ih =>
    obtain ⟨n, v⟩ := s
    have hcons := h.perm (perm_append_singleton (n, v) front).symm
    obtain ⟨hvalue, hfront⟩ := reads_cons.1 hcons
    obtain ⟨hreads, hordered⟩ := ih hfront
    have hput := hreads.putSorted n v
    rw [update_idem, update_eq_self_iff.2 hvalue.symm] at hput
    rw [foldl_append]
    exact ⟨hput, .putSorted hreads hordered n v⟩

theorem foldl_set (key : κ) (l : List (Nat × Bytes)) (view : OnChainSettings κ) :
    (l.map (key, ·)).foldl (fun view s => view.set s.1 s.2.1 s.2.2) view
      = update view key (l.foldl (fun l s => putSorted l s.1 s.2) (view key)) := by
  induction l generalizing view with
  | nil => exact (update_eq_self key view).symm
  | cons s l ih =>
    rw [map_cons, foldl_cons, ih, set, update_self, update_idem, foldl_cons]

theorem load_apply {keys : List κ} (hnodup : keys.Nodup) (conf : κ → List (Nat × Bytes))
    (view : OnChainSettings κ) (key : κ) :
    (keys.flatMap fun k => (conf k).map (k, ·)).foldl (fun view s => view.set s.1 s.2.1 s.2.2) view
        key
      = if key ∈ keys then (conf key).foldl (fun l s => putSorted l s.1 s.2) (view key)
        else view key := by
  induction keys generalizing view with
  | nil => rfl
  | cons k keys ih =>
    obtain ⟨hnew, hnodup⟩ := nodup_cons.1 hnodup
    rw [flatMap_cons, foldl_append, foldl_set, ih hnodup]
    by_cases hkey : key = k
    · subst hkey
      rw [if_neg hnew, update_self, if_pos mem_cons_self]
    · rw [update_of_ne hkey]
      simp only [mem_cons, hkey, false_or]

theorem views_load {c : RiverConfig κ} (h : c.Holds f) : (load c).Views f := by
  intro key
  have hload := load_apply c.configurationKeys.nodup c.configuration (fun _ => []) key
  rw [load, getAllConfiguration, hload]
  split
  · exact reads_load (h.reads key)
  rename_i hkey
  have hnil : c.configuration key = [] := by
    by_contra hne
    exact hkey (h.keys key hne)
  have hreads := h.reads key
  rw [hnil] at hreads
  exact ⟨hreads, .nil⟩

end OnChainSettings

/-! ## Reading -/

/-- The last setting that is not after the block. -/
def ActiveOn (settings : List (Nat × Bytes)) (block : Nat) (s : Nat × Bytes) : Prop :=
  s ∈ settings ∧ s.1 ≤ block ∧ ∀ t ∈ settings, t.1 ≤ block → t.1 ≤ s.1

omit [DecidableEq κ] in
theorem getOnBlock_eq {c : RiverConfig κ} {view : OnChainSettings κ} (hc : c.Holds f)
    (hview : view.Views f) (key : κ) (block : Nat) (s : Nat × Bytes) :
    view.getOnBlock key block = some s ↔ ActiveOn (c.configuration key) block s := by
  have hmem : ∀ t, t ∈ view key ↔ t ∈ c.configuration key :=
    fun t => ((hview key).1.mem t.1 t.2).trans ((hc.reads key).mem t.1 t.2).symm
  have hfound : ∀ x, view.getOnBlock key block = some x →
      ActiveOn (c.configuration key) block x := by
    intro x hx
    obtain ⟨hin, hle, hgreatest⟩ := active_some (hview key).2 hx
    exact ⟨(hmem x).1 hin, hle, fun t ht => hgreatest t ((hmem t).2 ht)⟩
  refine ⟨hfound s, fun hs => ?_⟩
  cases hx : view.getOnBlock key block with
  | none =>
    have habove := active_none hx s ((hmem s).2 hs.1)
    exact absurd hs.2.1 (Nat.not_le.2 habove)
  | some x =>
    -- two settings in force have the same block, and a block has one value
    have hx' := hfound x hx
    have hblock : x.1 = s.1 := Nat.le_antisymm (hs.2.2 x hx'.1 hx'.2.1) (hx'.2.2 s hs.1 hs.2.1)
    have hvalue := ((hc.reads key).mem x.1 x.2).1 hx'.1
    rw [hblock, ((hc.reads key).mem s.1 s.2).1 hs.1] at hvalue
    rw [Prod.ext hblock (Option.some.inj hvalue).symm]

/-- **Configuration view.** A node loads the contract and follows the events since then, those
    of the `initial` transactions for the second time. If no deletion of a whole key takes later
    blocks than 0 away, and no event removes a setting before the last two of the view, then the
    node reads the setting in force in the contract, and misses it exactly if there is none. -/
theorem onChainConfig_reads (unpackUint64 : Bytes → Option Nat) (unpackInt64 : Bytes → Option Int)
    (past initial later : List (ConfigTx κ))
    (hzero : (riverConfigMachine κ).Along RiverConfig.DeletesAtZero
      ((riverConfigMachine κ).exec .empty past) (initial ++ later))
    (hlate : (settingsMachine κ).Along RemovesLate
      (load ((riverConfigMachine κ).exec .empty (past ++ initial)))
      ((riverConfigMachine κ).collect (riverConfigMachine κ).out
        ((riverConfigMachine κ).exec .empty past) (initial ++ later)))
    (key : κ) (block : Nat) :
    let c := (riverConfigMachine κ).exec .empty (past ++ (initial ++ later))
    let view := (settingsMachine κ).exec
      (load ((riverConfigMachine κ).exec .empty (past ++ initial)))
      ((riverConfigMachine κ).collect (riverConfigMachine κ).out
        ((riverConfigMachine κ).exec .empty past) (initial ++ later))
    (∀ s, ActiveOn (c.configuration key) block s →
      view.getUint64OnBlock unpackUint64 block key = settingValue unpackUint64 s.2 ∧
      view.getInt64OnBlock unpackInt64 block key = settingValue unpackInt64 s.2) ∧
    (view.getUint64OnBlock unpackUint64 block key = .error .notFound ↔
      ¬ ∃ s, ActiveOn (c.configuration key) block s) ∧
    (view.getInt64OnBlock unpackInt64 block key = .error .notFound ↔
      ¬ ∃ s, ActiveOn (c.configuration key) block s) := by
  intro c view
  obtain ⟨f, hpast⟩ := (holds_empty (κ := κ)).exec past
  have hc := hpast.events hzero
  rw [← exec_append] at hc
  -- the loaded settings are those after the initial transactions, so their replay changes nothing
  have hinitial := hpast.events ((along_append ..).1 hzero).1
  rw [← exec_append] at hinitial
  have hview := (views_load hinitial).events hlate
  rw [collect_append, foldl_append] at hc
  nth_rewrite 2 [collect_append] at hview
  rw [foldl_append, replay_idempotent] at hview
  have hget := getOnBlock_eq hc hview key block
  refine ⟨fun s hs => ?_, ?_, ?_⟩
  · have hfound : view.getOnBlock key block = some s := (hget s).2 hs
    simp only [getUint64OnBlock, getInt64OnBlock, getOnBlockAs, hfound, and_self]
  all_goals
    have hnone : (¬ ∃ s, ActiveOn (c.configuration key) block s) ↔
        view.getOnBlock key block = none := by
      rw [Option.eq_none_iff_forall_ne_some, not_exists]
      exact forall_congr' fun s => not_congr (hget s).symm
    rw [hnone]
    cases hfound : view.getOnBlock key block with
    | none =>
      simp only [getUint64OnBlock, getInt64OnBlock, getOnBlockAs, hfound]
    | some s =>
      simp only [getUint64OnBlock, getInt64OnBlock, getOnBlockAs, hfound, reduceCtorEq, iff_false]
      exact settingValue_ne_notFound _ s.2

def wordOf (n : Fin 256) : Bytes := replicate 31 0 ++ [n]

def unpackWord (value : Bytes) : Option Nat := value.getLast?.map (·.val)

def managerTx (call : ConfigCall Nat) : ConfigTx Nat := ⟨true, call⟩

def readings (past later : List (ConfigCall Nat)) : Except ConfigError Nat × List (Nat × Bytes) :=
  let M := riverConfigMachine Nat
  let c := M.exec .empty (past.map managerTx)
  (((settingsMachine Nat).exec (load c)
      (M.collect M.out c (later.map managerTx))).getUint64OnBlock unpackWord 9 1,
    (M.exec c (later.map managerTx)).configuration 1)

/-- A node that loads three settings, is told the third again, and then of the deletion of the
    second. -/
theorem onChainConfig_reads_latest :
    let past := [ConfigCall.setConfiguration 1 1 (wordOf 10), .setConfiguration 1 2 (wordOf 20)].map
      managerTx
    let initial := [managerTx (.setConfiguration 1 3 (wordOf 30))]
    let M := riverConfigMachine Nat
    let c := M.exec .empty past
    ((settingsMachine Nat).exec (load (M.exec .empty (past ++ initial)))
      (M.collect M.out c (initial ++ [managerTx (.deleteConfigurationOnBlock 1 2)]))
        ).getUint64OnBlock unpackWord 9 1 = .ok 30 :=
  ((onChainConfig_reads unpackWord (fun _ => none) _ _ [managerTx (.deleteConfigurationOnBlock 1 2)]
    (by decide +kernel)
    (by decide +kernel) 1 9).1 (3, wordOf 30)
    ⟨by decide +kernel, by decide, by decide +kernel⟩).1.trans (by decide +kernel)

/-- A key with a setting at block 5 is deleted, and the node keeps the setting. The first of
    three settings is deleted, and the node reads the second instead of the third. -/
theorem onChainConfig_misreads :
    readings [.setConfiguration 1 5 (wordOf 7)] [.deleteConfiguration 1] = (.ok 7, []) ∧
    readings [.setConfiguration 1 1 (wordOf 10), .setConfiguration 1 2 (wordOf 20),
        .setConfiguration 1 3 (wordOf 30)] [.deleteConfigurationOnBlock 1 1]
      = (.ok 20, [(3, wordOf 30), (2, wordOf 20)]) := by
  decide +kernel

/-- **The store of the configuration.** After every run a key has at most one setting for a
    block, all settings are listed once, and a deletion at a block takes that setting and no other.
    A key exists exactly if it has a setting, as long as no deletion takes the last one of a key. -/
theorem configuration_store (txs : List (ConfigTx κ)) :
    let c := (riverConfigMachine κ).exec .empty txs
    (∀ key, ((c.configuration key).map Prod.fst).Nodup) ∧
    (c.getAllConfiguration.Nodup ∧ ∀ key setting,
      (key, setting) ∈ c.getAllConfiguration ↔ setting ∈ c.configuration key) ∧
    (∀ key blockNumber k s,
      s ∈ (c.step ⟨true, .deleteConfigurationOnBlock key blockNumber⟩).1.configuration k ↔
        s ∈ c.configuration k ∧ ¬(k = key ∧ s.1 = blockNumber)) ∧
    ((riverConfigMachine κ).Along RiverConfig.KeepsSetting .empty txs →
      ∀ key, c.configurationExists key = true ↔ ∃ s, s ∈ c.configuration key) := by
  intro c
  obtain ⟨f, hc⟩ := (holds_empty (κ := κ)).exec txs
  refine ⟨fun key => (hc.reads key).distinct,
    ⟨hc.nodup_getAllConfiguration, hc.mem_getAllConfiguration⟩,
    fun key blockNumber k => hc.mem_deleteConfigurationOnBlock key k blockNumber,
      fun hkeeps key => ?_⟩
  rw [configurationExists, decide_eq_true_eq]
  constructor
  · exact fun hkey => exists_mem_of_ne_nil _ (kept_exec hkeeps key hkey)
  · rintro ⟨s, hs⟩
    exact hc.keys key (ne_nil_of_mem hs)

/-- The only setting of a key is deleted at its block, and the key still exists. -/
theorem configurationExists_without_setting :
    let c := (riverConfigMachine Nat).exec .empty
      [managerTx (.setConfiguration 1 5 (wordOf 7)), managerTx (.deleteConfigurationOnBlock 1 5)]
    c.configurationExists 1 = true ∧ c.configuration 1 = [] := by
  decide +kernel

end River.Node
