/-
  How old the reads can be that an answer of a node rests on.

  What a cached answer was made from may have been cached too, and that age adds up.
-/

import River.Node.Auth.ChainAuth

namespace River.Node.Auth

open River.Lib Sourced Nat
open River.Contracts (Address)

structure Bounds where
  enabled : Nat
  entitled : Bool → Nat
  manager : Nat

def Bounds.answer (b : Bounds) (allowed : Bool) : Nat :=
  max b.enabled (b.entitled allowed + b.manager)

def Bounds.entry (b : Bounds) (allowed : Bool) (args : ChainAuthArgs) : Nat :=
  match args.kind with
  | .spaceEnabled | .channelEnabled => 0
  | .space | .channel | .isSpaceMember =>
    if args.linkedWallets = [] then b.answer allowed else b.manager

def EntryWithin (b : Bounds) (sign : Bool) (args : ChainAuthArgs)
    (entry : CacheEntry ChainRead Bool) : Prop :=
  entry.result = sign ∧ ∀ r ∈ entry.sources, entry.timestamp ≤ r.time + b.entry sign args

def ManagerEntryWithin (sign : Bool) (entry : CacheEntry ChainRead EntitlementCacheResult) : Prop :=
  -- every answer of the manager is stored as an allowed one
  sign = true ∧ ∀ r ∈ entry.sources, entry.timestamp ≤ r.time

structure CachesWithin (b : Bounds) (caches : AuthCaches) : Prop where
  entitlement : caches.entitlementCache.Holds (EntryWithin b)
  manager : caches.entitlementManagerCache.Holds fun sign _ => ManagerEntryWithin sign

def FoundWithin {ρ : Type} (ttl : Ttl) (now : Nat) (bound : Bool → Nat) (args : ChainAuthArgs)
    (cache : TtlCache ChainAuthArgs ChainRead ρ) : Prop :=
  ∀ sign, ∀ entry ∈ cache.side sign args,
    now - entry.timestamp < ttl.of sign → now ≤ entry.timestamp + bound sign

def ChainAuthArgs.enabledArgs (args : ChainAuthArgs) : ChainAuthArgs :=
  match args.kind with
  | .channel => newArgsForEnabledChannel args.spaceId args.channelId
  | _ => newArgsForEnabledSpace args.spaceId

structure PartsFound (cfg : AuthConfig) (b : Bounds) (chain : Chain) (now : Nat)
    (args : ChainAuthArgs) (caches : AuthCaches) : Prop where
  enabled : FoundWithin cfg.entitlementTtl now (fun _ => b.enabled) args.enabledArgs
    caches.entitlementCache
  entitled : ∀ wallets, chain.linkedWallets args.principal = .ok wallets →
    FoundWithin cfg.entitlementTtl now b.entitled
      (args.withLinkedWallets (wallets ++ [args.principal])) caches.entitlementCache
  manager : ∀ wallets, chain.linkedWallets args.principal = .ok wallets →
    FoundWithin cfg.entitlementManagerTtl now (fun _ => b.manager)
      (args.withLinkedWallets (wallets ++ [args.principal])) caches.entitlementManagerCache

def PartsWithin (cfg : AuthConfig) (b : Bounds) (s : ChainAuth) : AuthAction → Prop
  | .isEntitled request chain =>
    (s.caches.entitlementCache.lookup cfg.entitlementTtl s.now request.args).2 = none →
      PartsFound cfg b chain s.now request.args s.caches
  | .advance _ | .evict _ _ => True

/-- The reads an answer rests on are at most `age` old. -/
def AnswerWithin (cfg : AuthConfig) (age : Bool → Nat) (s : ChainAuth) (a : AuthAction) : Prop :=
  ∀ answer ∈ (chainAuth cfg).out s a, ∀ allowed, answer.result = .ok allowed →
    ∀ r ∈ answer.sources, s.now ≤ r.time + age allowed

/-! ## One call -/

section Call

variable {cfg : AuthConfig} {b : Bounds} {chain : Chain} {now : Nat} {args : ChainAuthArgs}

def ReadsWithin (now bound : Nat) (reads : List ChainRead) : Prop :=
  ∀ r ∈ reads, now ≤ r.time + bound

variable {reads : List ChainRead}

theorem ReadsWithin.mono (h : ReadsWithin now bound reads) (hle : bound ≤ bound') :
    ReadsWithin now bound' reads := by
  intro r hr
  have hr := h r hr
  omega

theorem readsWithin_append {reads' : List ChainRead} :
    ReadsWithin now bound (reads ++ reads') ↔
      ReadsWithin now bound reads ∧ ReadsWithin now bound reads' :=
  List.forall_mem_append

theorem readsWithin_nil (now bound : Nat) : ReadsWithin now bound [] := fun _ hr => nomatch hr

theorem readsWithin_now (kind : ReadKind) (now bound : Nat) :
    ReadsWithin now bound [⟨kind, now⟩] := by
  intro r hr
  rw [List.mem_singleton.1 hr]
  exact le_add_right now bound

def Running (cfg : AuthConfig) (b : Bounds) (chain : Chain) (now : Nat) (args : ChainAuthArgs)
    (caches : AuthCaches) : Prop :=
  CachesWithin b caches ∧ PartsFound cfg b chain now args caches

theorem foundWithin_iff_holds {ρ : Type} {bound : Bool → Nat}
    {cache : TtlCache ChainAuthArgs ChainRead ρ} :
    FoundWithin ttl now bound args cache ↔ cache.Holds fun sign key entry => key = args →
      now - entry.timestamp < ttl.of sign → now ≤ entry.timestamp + bound sign := by
  constructor
  · rintro h sign key entry hentry rfl
    exact h sign entry hentry
  · exact fun h sign entry hentry => h sign args entry hentry rfl

section Found

variable {ρ : Type}

theorem FoundWithin.lookup (h : FoundWithin ttl now bound args cache) (ttl' : Ttl) (now' : Nat)
    (key : ChainAuthArgs) : FoundWithin ttl now bound args (cache.lookup ttl' now' key).1 :=
  foundWithin_iff_holds.2 ((foundWithin_iff_holds.1 h).lookup ttl' now' key)

theorem FoundWithin.store (h : FoundWithin ttl now bound args cache) (key : ChainAuthArgs)
    (sign : Bool) (result : ρ) (sources : List ChainRead) :
    FoundWithin ttl now bound args (cache.store now key sign result sources) := by
  refine foundWithin_iff_holds.2 ((foundWithin_iff_holds.1 h).store fun _ _ => ?_)
  exact le_add_right now _

end Found

theorem Running.lookup (h : Running cfg b chain now args caches) (key : ChainAuthArgs) :
    Running cfg b chain now args (entitlementCache.set
      ((entitlementCache.get caches).lookup cfg.entitlementTtl now key).1 caches) :=
  ⟨⟨h.1.entitlement.lookup _ _ _, h.1.manager⟩,
    ⟨h.2.enabled.lookup _ _ _, fun wallets hw =>
      (h.2.entitled wallets hw).lookup _ _ _, h.2.manager⟩⟩

theorem Running.store (h : Running cfg b chain now args caches)
    (hreads : ReadsWithin now (b.entry result key) sources) :
    Running cfg b chain now args (entitlementCache.set
      ((entitlementCache.get caches).store now key (id result) result sources) caches) :=
  ⟨⟨h.1.entitlement.store ⟨rfl, hreads⟩, h.1.manager⟩,
    ⟨h.2.enabled.store _ _ _ _, fun wallets hw => (h.2.entitled wallets hw).store _ _ _ _,
      h.2.manager⟩⟩

/-! ## Parts of an answer -/

abbrev Recent {α : Type} (I : AuthCaches → Prop) (now bound : Nat) (m : AuthM α) : Prop :=
  m.Ensures I fun _ reads => ReadsWithin now bound reads

section Recent

variable {α β : Type}

theorem recent_pure (a : α) : Recent I now bound (pure a) :=
  ensures_pure (readsWithin_nil now bound)

theorem recent_fail (e : AuthError) : Recent (α := α) I now bound (fail e) :=
  ensures_fail (readsWithin_nil now bound)

theorem recent_chainRead (kind : ReadKind) (answer : Except AuthError α) :
    Recent I now bound (chainRead now kind answer) :=
  ensures_source (readsWithin_now kind now bound)

theorem recent_bind {f : α → AuthM β} (hm : Recent I now bound m)
    (hf : ∀ a, Recent I now bound (f a)) : Recent I now bound (m >>= f) :=
  ensures_bind hm (fun _ _ h => h) fun a _ hreads => (hf a).mono fun _ _ hreads' =>
    readsWithin_append.2 ⟨hreads, hreads'⟩

theorem recent_ite [Decidable c] (hm : Recent I now bound m)
    (hm' : Recent I now bound m') : Recent I now bound (if c then m else m') := by
  split
  · exact hm
  · exact hm'

theorem Recent.mono (h : Recent I now bound m) (hle : bound ≤ bound') : Recent I now bound' m :=
  Ensures.mono h fun _ _ hreads => hreads.mono hle

end Recent

theorem recent_isEntitledByAny (wallets : List Address) (principal : Address)
    (entitlements : List SpaceEntitlements) :
    Recent I now 0 (isEntitledByAny chain now wallets principal entitlements) := by
  induction entitlements with
  | nil => exact recent_pure false
  | cons entitlement rest ih =>
    cases entitlement with
    | rule ruleEntitlement =>
      exact recent_bind (recent_chainRead _ _) fun _ => recent_ite (recent_pure true) ih
    | user userEntitlement => exact recent_ite (recent_pure true) ih
    | invalid => exact ih

theorem recent_isAnyEntitledToChannel (key : ChainAuthArgs)
    (wallets : List Address) : Recent I now 0 (isAnyEntitledToChannel chain now key wallets) := by
  induction wallets with
  | nil => exact recent_pure false
  | cons wallet rest ih =>
    exact recent_bind (recent_chainRead _ _) fun _ => recent_ite (recent_pure true) ih

theorem recent_checkEnabled {onMiss : ChainAuthArgs → AuthM Bool} (disabled : AuthError)
    (hkey : ∀ sign, b.entry sign args.enabledArgs = 0)
    (hmiss : Recent (Running cfg b chain now args) now 0 (onMiss args.enabledArgs)) :
    Recent (Running cfg b chain now args) now b.enabled
      (checkEnabled cfg now args.enabledArgs onMiss disabled) := by
  refine recent_bind (ensures_executeUsingCache (fun _ h => h.lookup _) ?_ hmiss
    (fun _ _ hreads => hreads.mono (zero_le _)) fun _ _ _ h hreads => h.store ?_)
    fun _ => recent_ite (recent_pure ()) (recent_fail disabled)
  · intro caches h sign entry hentry hage r hr
    have hread := (h.1.entitlement sign _ entry hentry).2 r hr
    have hfound : now ≤ entry.timestamp + b.enabled := h.2.enabled sign entry hentry hage
    rw [hkey sign] at hread
    omega
  · rw [hkey]
    exact hreads

variable {wallets : List Address}

def ChainAuthArgs.walletArgs (args : ChainAuthArgs) (wallets : List Address) : ChainAuthArgs :=
  args.withLinkedWallets (wallets ++ [args.principal])

theorem entry_walletArgs (b : Bounds) (sign : Bool) (wallets : List Address)
    (hkind : args.kind = .space ∨ args.kind = .channel) :
    b.entry sign (args.walletArgs wallets) = b.manager := by
  have hwallets : (args.walletArgs wallets).linkedWallets ≠ [] := by
    show wallets ++ [args.principal] ≠ []
    simp
  have hsame : (args.walletArgs wallets).kind = args.kind := rfl
  unfold Bounds.entry
  rw [hsame]
  rcases hkind with hkind | hkind <;>
    · rw [hkind]
      exact if_neg hwallets

variable (hwallets : chain.linkedWallets args.principal = .ok wallets)

include hwallets

theorem recent_isEntitledToSpaceUncached :
    Recent (Running cfg b chain now args) now b.manager
      (isEntitledToSpaceUncached cfg chain now (args.walletArgs wallets)) := by
  refine recent_bind (ensures_executeUsingCache (Q := fun r reads => ReadsWithin now 0 reads ∧
      ∀ result, r = .ok result → result.allowed = true)
    (fun _ h => ⟨⟨h.1.entitlement, h.1.manager.lookup _ _ _⟩, h.2.enabled, h.2.entitled,
      fun wallets hw => (h.2.manager wallets hw).lookup _ _ _⟩)
    ?_ ?_ (fun _ _ hreads => hreads.1.mono (zero_le _))
    fun _ _ _ h hreads => ⟨⟨h.1.entitlement, h.1.manager.store ⟨hreads.2 _ rfl, hreads.1⟩⟩,
      h.2.enabled, h.2.entitled, fun wallets hw => (h.2.manager wallets hw).store _ _ _ _⟩)
    fun result => ?_
  · intro caches h sign entry hentry hage r hr
    have hread : entry.timestamp ≤ r.time := (h.1.manager sign _ entry hentry).2 r hr
    have hfound : now ≤ entry.timestamp + b.manager :=
      h.2.manager wallets hwallets sign entry hentry hage
    omega
  · refine ensures_bind (Q := fun _ reads => ReadsWithin now 0 reads) (recent_chainRead _ _)
      (fun _ _ hreads => ⟨hreads, nofun⟩) fun _ reads hreads => ensures_pure ⟨?_, ?_⟩
    · rwa [List.append_nil]
    · rintro _ ⟨⟩
      rfl
  · exact recent_ite (recent_pure true) ((recent_isEntitledByAny _ _ _).mono (zero_le _))

def RecentResult (now : Nat) (bound : Bool → Nat) : Except AuthError Bool → List ChainRead → Prop
  | .ok allowed, reads => ReadsWithin now (bound allowed) reads
  | .error _, _ => True

theorem recent_entitled (hkind : args.kind = .space ∨ args.kind = .channel)
    (hmiss : Recent (Running cfg b chain now args) now b.manager onMiss) :
    (executeUsingCache entitlementCache cfg.entitlementTtl now id (args.walletArgs wallets)
      onMiss).Ensures (Running cfg b chain now args)
      (RecentResult now fun allowed => b.entitled allowed + b.manager) := by
  refine ensures_executeUsingCache (fun _ h => h.lookup _) ?_ hmiss ?_ ?_
  · intro caches h sign entry hentry hage r hr
    obtain ⟨hsign, hreads⟩ := h.1.entitlement sign _ entry hentry
    have hread := hreads r hr
    have hfound := h.2.entitled wallets hwallets sign entry hentry hage
    rw [entry_walletArgs b sign wallets hkind] at hread
    rw [hsign]
    show now ≤ r.time + (b.entitled sign + b.manager)
    omega
  · intro r reads hreads
    cases r with
    | ok allowed => exact hreads.mono (le_add_left _ _)
    | error e => trivial
  · intro caches r reads h hreads
    refine h.store ?_
    rw [entry_walletArgs b r wallets hkind]
    exact hreads

theorem recent_areLinkedWalletsEntitled :
    (areLinkedWalletsEntitled cfg chain now (args.walletArgs wallets)).Ensures
      (Running cfg b chain now args)
      (RecentResult now fun allowed => b.entitled allowed + b.manager) := by
  have hsame : (args.walletArgs wallets).kind = args.kind := rfl
  unfold areLinkedWalletsEntitled
  rw [hsame]
  cases hkind : args.kind with
  | space =>
    have hguard : ¬(args.walletArgs wallets).kind ≠ .space := not_not.2 hkind
    unfold isEntitledToSpace
    rw [if_neg hguard]
    exact recent_entitled hwallets (.inl hkind) (recent_isEntitledToSpaceUncached hwallets)
  | channel =>
    have hguard : ¬(args.walletArgs wallets).kind ≠ .channel := not_not.2 hkind
    unfold isEntitledToChannel
    rw [if_neg hguard]
    exact recent_entitled hwallets (.inr hkind)
      ((recent_isAnyEntitledToChannel _ _).mono (zero_le _))
  | isSpaceMember => exact ensures_pure (readsWithin_nil _ _)
  | _ => exact ensures_fail trivial

/-! ## The answer -/

theorem recent_checkWallets :
    (checkWallets cfg chain now args (wallets ++ [args.principal])).Ensures
      (Running cfg b chain now args) (RecentResult now b.answer) := by
  have hmember : ReadsWithin now 0
      ((wallets ++ [args.principal]).map fun _ => (⟨.membership, now⟩ : ChainRead)) := by
    intro r hr
    obtain ⟨_, -, rfl⟩ := List.mem_map.1 hr
    exact le_refl now
  refine ensures_bind (Q := fun _ reads => ReadsWithin now 0 reads)
    (ensures_source hmember) (fun _ _ _ => trivial) fun isMember reads hreads => ?_
  split
  · refine ensures_pure ?_
    rw [List.append_nil]
    exact .mono hreads (zero_le _)
  · split
    · exact ensures_fail trivial
    refine (recent_areLinkedWalletsEntitled hwallets).mono fun r reads' hreads' => ?_
    cases r with
    | error e => trivial
    | ok allowed =>
      refine readsWithin_append.2 ⟨.mono hreads (zero_le _), ?_⟩
      exact .mono hreads' (le_max_right _ _)

omit hwallets

theorem recent_checkSpaceEnabled (hkey : args.enabledArgs = newArgsForEnabledSpace args.spaceId) :
    Recent (Running cfg b chain now args) now b.enabled
      (checkSpaceEnabled cfg chain now args.spaceId) := by
  unfold checkSpaceEnabled
  rw [← hkey]
  refine recent_checkEnabled .spaceDisabled (fun sign => ?_) ?_
  · rw [hkey]
    rfl
  · exact recent_bind (recent_chainRead _ _) fun _ => recent_pure _

theorem recent_checkChannelEnabled
    (hkey : args.enabledArgs = newArgsForEnabledChannel args.spaceId args.channelId) :
    Recent (Running cfg b chain now args) now b.enabled
      (checkChannelEnabled cfg chain now args.spaceId args.channelId) := by
  unfold checkChannelEnabled
  rw [← hkey]
  refine recent_checkEnabled .channelDisabled (fun sign => ?_) ?_
  · rw [hkey]
    rfl
  · exact recent_bind (recent_chainRead _ _) fun _ => recent_pure _

theorem recent_checkKindEnabled :
    Recent (Running cfg b chain now args) now b.enabled (checkKindEnabled cfg chain now args) := by
  unfold checkKindEnabled
  cases hkind : args.kind with
  | channel =>
    refine ensures_attempt (recent_checkChannelEnabled ?_)
    unfold ChainAuthArgs.enabledArgs
    rw [hkind]
  | spaceEnabled | channelEnabled => exact recent_fail _
  | _ =>
    refine ensures_attempt (recent_checkSpaceEnabled ?_)
    unfold ChainAuthArgs.enabledArgs
    rw [hkind]

theorem recent_checkEntitlement :
    (checkEntitlement cfg chain now args).Ensures (Running cfg b chain now args)
      (RecentResult now b.answer) := by
  refine ensures_bind recent_checkKindEnabled (fun _ _ _ => trivial) fun enabled reads hreads => ?_
  have hreads : ∀ allowed, ReadsWithin now (b.answer allowed) reads := fun allowed =>
    .mono hreads (le_max_left _ _)
  cases enabled with
  | error e =>
    refine ensures_pure ?_
    rw [List.append_nil]
    exact hreads false
  | ok u =>
    cases hwallets : chain.linkedWallets args.principal with
    | error e =>
      refine ensures_bind (Q := fun r _ => ∃ e, r = .error e) ?_ (fun _ _ _ => trivial) ?_
      · unfold getLinkedWallets
        rw [hwallets]
        exact ensures_source ⟨e, rfl⟩
      · rintro a reads ⟨e, h⟩
        cases h
    | ok wallets =>
      refine ensures_bind (Q := fun r reads => r = .ok wallets ∧ ReadsWithin now 0 reads) ?_
        (fun _ _ _ => trivial) ?_
      · unfold getLinkedWallets
        rw [hwallets]
        exact ensures_source ⟨rfl, readsWithin_now _ _ _⟩
      · rintro a _ ⟨ha, hreads'⟩
        cases ha
        refine (recent_checkWallets hwallets).mono fun r reads'' hreads'' => ?_
        cases r with
        | error e => trivial
        | ok allowed =>
          refine readsWithin_append.2 ⟨hreads allowed, readsWithin_append.2 ⟨?_, hreads''⟩⟩
          exact .mono hreads' (zero_le _)

def Bounds.answerAge (b : Bounds) (cfg : AuthConfig) (allowed : Bool) : Nat :=
  cfg.entitlementTtl.of allowed + b.answer allowed

theorem isEntitled_within (request : AuthRequest) (h : CachesWithin b caches)
    (hparts : (caches.entitlementCache.lookup cfg.entitlementTtl now request.args).2 = none →
      PartsFound cfg b chain now request.args caches) :
    let (outcome, caches') := isEntitled cfg chain now request.args caches
    RecentResult now (b.answerAge cfg) outcome.result outcome.sources ∧ CachesWithin b caches' := by
  have hentry : ∀ sign, b.entry sign request.args = b.answer sign := by
    intro sign
    cases request <;> rfl
  refine executeUsingCache_of h
    (fun _ h => ⟨h.entitlement.lookup _ _ _, h.manager⟩) ?_ ?_ recent_checkEntitlement ?_
    (fun _ h => h.1) ?_
  · intro sign entry hmem hage r hr
    obtain ⟨hsign, hreads⟩ := h.entitlement sign _ entry hmem
    have hread := hreads r hr
    rw [hentry sign] at hread
    rw [hsign]
    show now ≤ r.time + (cfg.entitlementTtl.of sign + b.answer sign)
    omega
  · intro hnone
    exact .lookup ⟨h, hparts hnone⟩ request.args
  · intro r reads hreads
    cases r with
    | error e => trivial
    | ok allowed => exact .mono hreads (le_add_left _ _)
  · intro caches r reads h hreads
    refine ⟨h.entitlement.store ⟨rfl, ?_⟩, h.manager⟩
    show ReadsWithin now (b.entry r request.args) reads
    rw [hentry r]
    exact hreads

end Call

/-! ## All runs -/

section Runs

theorem within_next (h : CachesWithin b s.caches) (hparts : PartsWithin cfg b s a) :
    AnswerWithin cfg (b.answerAge cfg) s a ∧
      CachesWithin b ((chainAuth cfg).next s a).caches := by
  cases a with
  | isEntitled request chain =>
    obtain ⟨hanswer, hcaches⟩ := isEntitled_within request h hparts
    refine ⟨?_, hcaches⟩
    rintro _ hout _ hallowed r hr
    cases hout
    rw [hallowed] at hanswer
    exact hanswer r hr
  | advance duration => exact ⟨fun _ hout => (nomatch hout), h⟩
  | evict keep keepManager =>
    exact ⟨fun _ hout => (nomatch hout), h.entitlement.evict keep, h.manager.evict keepManager⟩

theorem answers_within (cfg : AuthConfig) (b : Bounds)
    (h : (chainAuth cfg).Along (PartsWithin cfg b) .init run) :
    (chainAuth cfg).Along (AnswerWithin cfg (b.answerAge cfg)) .init run :=
  h.imp_of_invariant (I := fun s => CachesWithin b s.caches)
    (fun _ _ hs hp => (within_next hs hp).2)
    (fun _ _ hs hp => (within_next hs hp).1)
    ⟨TtlCache.holds_empty, TtlCache.holds_empty⟩

theorem foundWithin_ttl (ttl : Ttl) (now : Nat) (args : ChainAuthArgs)
    (cache : TtlCache ChainAuthArgs ChainRead ρ) : FoundWithin ttl now ttl.of args cache := by
  intro sign entry _ hage
  omega

theorem foundWithin_max (ttl : Ttl) (now : Nat) (args : ChainAuthArgs)
    (cache : TtlCache ChainAuthArgs ChainRead ρ) :
    FoundWithin ttl now (fun _ => max ttl.positive ttl.negative) args cache := by
  intro sign entry hmem hage
  have hfound := foundWithin_ttl ttl now args cache sign entry hmem hage
  cases sign
  · exact hfound.trans (Nat.add_le_add_left (Nat.le_max_right _ _) _)
  · exact hfound.trans (Nat.add_le_add_left (Nat.le_max_left _ _) _)

end Runs

variable (cfg : AuthConfig)

def AuthConfig.bounds : Bounds where
  enabled := max cfg.entitlementTtl.positive cfg.entitlementTtl.negative
  entitled := cfg.entitlementTtl.of
  manager := cfg.entitlementManagerTtl.positive

variable {cfg}

theorem partsWithin_bounds (h : CachesWithin cfg.bounds s.caches) (a : AuthAction) :
    PartsWithin cfg cfg.bounds s a := by
  cases a with
  | isEntitled request chain =>
    refine fun _ => ⟨foundWithin_max _ _ _ _, fun wallets _ => foundWithin_ttl _ _ _ _,
      fun wallets _ sign entry hmem hage => ?_⟩
    obtain ⟨rfl, -⟩ := h.manager sign _ entry hmem
    exact foundWithin_ttl _ _ _ _ true entry hmem hage
  | _ => trivial

variable (cfg)

theorem answers_bounded (run : List AuthAction) :
    (chainAuth cfg).Along (AnswerWithin cfg (cfg.bounds.answerAge cfg)) .init run :=
  .imp_of_invariant (I := fun s => CachesWithin cfg.bounds s.caches) (P := fun _ _ => True)
    (fun _ a hs _ => (within_next hs (partsWithin_bounds hs a)).2)
    (fun _ a hs _ => (within_next hs (partsWithin_bounds hs a)).1)
    ⟨TtlCache.holds_empty, TtlCache.holds_empty⟩ (Machine.along_of_forall (fun _ _ => trivial) _ _)

/-- What a new answer is made of is itself new. -/
def PartsNew (s : ChainAuth) (a : AuthAction) : Prop :=
  PartsWithin cfg ⟨0, fun _ => 0, 0⟩ s a

/-- The reads are no older than the TTL of the answer. -/
def Fresh (s : ChainAuth) (a : AuthAction) : Prop :=
  AnswerWithin cfg cfg.entitlementTtl.of s a

/-- **Freshness.** In every run in which answers are made from new parts, every answer is fresh. -/
theorem answers_fresh (cfg : AuthConfig) (run : List AuthAction)
    (h : (chainAuth cfg).Along (PartsNew cfg) .init run) :
    (chainAuth cfg).Along (Fresh cfg) .init run :=
  (answers_within cfg ⟨0, fun _ => 0, 0⟩ h).mono fun _ _ hwithin => hwithin

/-! ## Sample runs -/

def sampleAuthConfig : AuthConfig := ⟨⟨900, 2⟩, ⟨15, 2⟩, 10⟩

def sampleAuthSpace : StreamId := ⟨StreamType.space.bin :: List.replicate 31 0, by decide⟩

def sampleChain (disabled : Bool) (users : List Address) : Chain where
  isSpaceDisabled _ := .ok disabled
  isChannelDisabled _ _ := .ok disabled
  isEntitledToChannel _ _ wallet _ := .ok (wallet ∈ users)
  getSpaceEntitlementsForPermission _ _ := .ok ([.user users], 0)
  isMember _ _ := .ok true
  getWalletsByRootKey := none
  evaluateRuleData _ _ := .ok true

/-- User 5 may write, and still may after 800 seconds. -/
theorem answers_fresh_sample :
    let write : AuthAction := .isEntitled (.space sampleAuthSpace 5 .write) (sampleChain false [5])
    (chainAuth sampleAuthConfig).Along (Fresh sampleAuthConfig) .init
      [write, .advance 800, write] := by
  intro write
  refine answers_fresh sampleAuthConfig _ ⟨?_, trivial, ?_, trivial⟩
  · -- there are no entries yet
    refine fun _ => ⟨?_, fun wallets _ => ?_, fun wallets _ => ?_⟩ <;>
      · intro sign entry hentry
        cases sign <;> cases hentry
  · intro hnone
    exact absurd hnone (by decide)

/-- The space is disabled after user 6 was found entitled; 800 seconds later user 6 may still write,
    on a read 1699 seconds old. And user 7 is still denied 14 seconds after a refusal, entitled by
    then, on a read 14 seconds old. -/
theorem not_answers_fresh :
    (let s := (chainAuth sampleAuthConfig).exec .init
      [.isEntitled (.space sampleAuthSpace 5 .write) (sampleChain false [5, 6]), .advance 899,
        .isEntitled (.space sampleAuthSpace 6 .write) (sampleChain false [5, 6]), .advance 800]
    let a : AuthAction := .isEntitled (.space sampleAuthSpace 6 .write) (sampleChain true [5, 6])
    s.now = 1699 ∧ (∃ answer ∈ (chainAuth sampleAuthConfig).out s a,
      answer.result = .ok true ∧ ⟨.enabled, 0⟩ ∈ answer.sources) ∧ ¬Fresh sampleAuthConfig s a) ∧
    (let s := (chainAuth sampleAuthConfig).exec .init
      [.isEntitled (.space sampleAuthSpace 7 .write) (sampleChain false []), .advance 14]
    let a : AuthAction := .isEntitled (.space sampleAuthSpace 7 .write) (sampleChain false [7])
    s.now = 14 ∧ (∃ answer ∈ (chainAuth sampleAuthConfig).out s a,
      answer.result = .ok false ∧ ⟨.entitlementData, 0⟩ ∈ answer.sources) ∧
      ¬Fresh sampleAuthConfig s a) := by
  constructor
  · intro s a
    have hanswer : ∃ answer ∈ (chainAuth sampleAuthConfig).out s a,
        answer.result = .ok true ∧ ⟨.enabled, 0⟩ ∈ answer.sources := by
      decide +kernel
    refine ⟨rfl, hanswer, fun hfresh => ?_⟩
    obtain ⟨answer, hout, hallow, hread⟩ := hanswer
    have hage : 1699 ≤ 0 + 900 := hfresh answer hout true hallow _ hread
    omega
  · intro s a
    have hanswer : ∃ answer ∈ (chainAuth sampleAuthConfig).out s a,
        answer.result = .ok false ∧ ⟨.entitlementData, 0⟩ ∈ answer.sources := by
      decide +kernel
    refine ⟨rfl, hanswer, fun hfresh => ?_⟩
    obtain ⟨answer, hout, hdeny, hread⟩ := hanswer
    have hage : 14 ≤ 0 + 2 := hfresh answer hout false hdeny _ hread
    omega

end River.Node.Auth
