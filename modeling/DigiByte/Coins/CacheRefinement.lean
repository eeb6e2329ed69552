import DigiByte.Coins.CacheWrites

/-!
Every run of operations on a stack of coin caches answers as the plain states do.
-/

set_option autoImplicit false
set_option relaxedAutoImplicit false

namespace DigiByte.Coins

open DigiDollar (ChainstateHealth)
open Library.WriteBack

/-! Steps. -/

section Steps

variable {stack : CoinsStack} {plain : PlainStack} {key : CoinKey}

theorem Represents.top_eq (represents : Represents stack plain) :
    stateOf stack.db (stack.top :: stack.below) = plain.top := (List.cons.inj represents.states).1

theorem Represents.below_eq (represents : Represents stack plain) :
    statesOf stack.db stack.below = plain.next :: plain.rest := (List.cons.inj represents.states).2

theorem Represents.next_eq (represents : Represents stack plain) :
    stateOf stack.db stack.below = plain.next := by
  have head := head_statesOf stack.db stack.below
  rw [represents.below_eq] at head
  exact (Option.some.inj head).symm

theorem Represents.bottom_iff (represents : Represents stack plain) : stack.below = [] ↔
    plain.rest = [] := by
  have length := congrArg List.length represents.below_eq
  rw [length_statesOf, List.length_cons] at length
  rw [← List.length_eq_zero_iff, ← List.length_eq_zero_iff]
  omega

theorem Represents.db_state (represents : Represents stack plain) (bottom : plain.rest = []) :
    stack.db.state = plain.next := by
  have next := represents.next_eq
  rw [represents.bottom_iff.mpr bottom] at next
  exact next

theorem Represents.unchanged {top : CCoinsViewCache} {below : List CCoinsViewCache}
    (represents : Represents stack plain)
    (unchanged : Unchanged stack.db (stack.top :: stack.below) (top :: below)) :
    Represents { stack with top, below } plain :=
  ⟨unchanged.coherent represents.coherent, unchanged.states.trans represents.states⟩

theorem Represents.replace {top : CCoinsViewCache} (represents : Represents stack plain)
    (sound : ∀ key, SoundCell (plain.next.coins key) (top.cacheCoins.lookup key)) :
    Represents { stack with top } { plain with top := top.state plain.next } := by
  refine ⟨⟨?_, represents.coherent.2⟩, ?_⟩
  · dsimp only
    rw [represents.next_eq]
    exact sound
  · rw [statesOf, stateOf]
    dsimp only
    rw [represents.next_eq, represents.below_eq]
    rfl

theorem Represents.sound (represents : Represents stack plain) (key : CoinKey) :
    SoundCell (plain.next.coins key) (stack.top.cacheCoins.lookup key) := by
  rw [← represents.next_eq]
  exact represents.coherent.1 key

theorem Represents.top_state (represents : Represents stack plain) :
    stack.top.state plain.next = plain.top := by
  rw [← represents.next_eq]
  exact represents.top_eq

theorem Represents.coins_eq (represents : Represents stack plain) (key : CoinKey) :
    read (plain.next.coins key) (stack.top.cacheCoins.lookup key) = plain.top.coins key :=
  congrFun (congrArg CoinsState.coins represents.top_state) key

theorem Represents.insert {entry : Entry UnspentCoin} (represents : Represents stack plain)
    (sound : Sound (plain.next.coins key) entry) :
    Represents { stack with top.cacheCoins := stack.top.cacheCoins.insert key entry }
      { plain with top.coins := Function.update plain.top.coins key entry.value } := by
  have replaced := @Represents.replace stack plain
    { stack.top with cacheCoins := stack.top.cacheCoins.insert key entry }
    represents (soundCells_insert represents.sound sound)
  rw [state_insert, represents.top_state] at replaced
  exact replaced

theorem Represents.erase (represents : Represents stack plain) (key : CoinKey) :
    Represents { stack with top.cacheCoins := stack.top.cacheCoins.erase key }
      { plain with top.coins := Function.update plain.top.coins key (plain.next.coins key) } := by
  have replaced :=
    @Represents.replace stack plain { stack.top with cacheCoins := stack.top.cacheCoins.erase key }
    represents (soundCells_erase represents.sound)
  rw [state_erase, represents.top_state] at replaced
  exact replaced

private theorem fetchCoin_represents (represents : Represents stack plain) (key : CoinKey) :
    Represents (stack.fetchCoin key).2 plain ∧
      (stack.fetchCoin key).2.top.cacheCoins.lookup key = (stack.fetchCoin key).1 ∧
      (stack.fetchCoin key).1.bind Entry.value = plain.top.coins key := by
  obtain ⟨below, value⟩ := getCoin_reads stack.db key stack.below
  obtain ⟨unchanged, held, value⟩ := fetchCoin_reads stack.db stack.top key below value
  exact ⟨represents.unchanged unchanged, held, by rw [← represents.top_eq]; exact value⟩

private theorem sound_addCoin {below : Option UnspentCoin} {cell : Option (Entry UnspentCoin)}
    (sound : SoundCell below cell) (coin : UnspentCoin) {possible_overwrite : Bool}
    (nothing : possible_overwrite = false → read below cell = none) :
    Sound below ⟨some coin, true,
      (cell.getD ⟨none, false, false⟩).fresh ||
      (!possible_overwrite && !(cell.getD ⟨none, false, false⟩).dirty)⟩ := by
  have fresh : (cell.getD ⟨none, false, false⟩).fresh = cell.any Entry.fresh := by
    cases cell <;> rfl
  have dirty : (cell.getD ⟨none, false, false⟩).dirty = cell.any Entry.dirty := by
    cases cell <;> rfl
  rw [fresh, dirty]
  cases possible_overwrite with
  | true => simpa using sound_set sound coin
  | false => simpa using sound_add sound (nothing rfl) coin

private theorem addCoin_refines (represents : Represents stack plain) {coin : Coin}
    {possible_overwrite : Bool} (permits : plain.Permits (.addCoin key coin possible_overwrite)) :
    ∃ top, stack.top.addCoin key coin possible_overwrite = .ok top ∧
      Represents { stack with top } (plain.step (.addCoin key coin possible_overwrite)).2 := by
  obtain ⟨unspent, permits⟩ := permits
  have value : unspentOf coin = some ⟨coin, unspent⟩ := dif_pos unspent
  unfold CCoinsViewCache.addCoin PlainStack.step
  rw [value]
  dsimp only
  by_cases unspendable : Script.isUnspendable coin.out.scriptPubKey = true
  · rw [if_pos unspendable, if_pos unspendable]
    exact ⟨stack.top, rfl, represents⟩
  rw [if_neg unspendable, if_neg unspendable]
  have nothing : possible_overwrite = false →
      read (plain.next.coins key) (stack.top.cacheCoins.lookup key) = none := by
    intro strict
    rw [represents.coins_eq key]
    rcases permits with permits | permits | permits
    · rw [strict] at permits
      cases permits
    · exact absurd permits unspendable
    · exact permits
  have sound := sound_addCoin (represents.sound key) ⟨coin, unspent⟩ nothing
  split_ifs with overwrites
  · -- the cache cannot hold a coin that the caller promises not to be there
    obtain ⟨strict, held⟩ := overwrites
    have absent := nothing strict
    cases cell : stack.top.cacheCoins.lookup key with
    | none =>
      rw [cell] at held
      cases held
    | some entry =>
      rw [cell] at held absent
      rw [Option.getD_some, show entry.value = none from absent] at held
      cases held
  · refine ⟨_, rfl, ?_⟩
    rw [value]
    exact represents.insert sound

private theorem spendCoin_refines (represents : Represents stack plain) (key : CoinKey) :
    (CoinsReply.spent (stack.spendCoin key).1.1 (stack.spendCoin key).1.2).Agrees
    (plain.step (.spendCoin key)).1 ∧
      Represents (stack.spendCoin key).2 (plain.step (.spendCoin key)).2 := by
  obtain ⟨fetched, held, value⟩ := fetchCoin_represents represents key
  unfold CoinsStack.spendCoin PlainStack.step
  dsimp only
  generalize stack.fetchCoin key = result at fetched held value ⊢
  obtain ⟨found, filled⟩ := result
  dsimp only at fetched held value ⊢
  cases found with
  | none =>
    have nothing : plain.top.coins key = none := value.symm
    rw [nothing]
    refine ⟨⟨rfl, fun found => by cases found⟩, ?_⟩
    rw [← nothing, Function.update_eq_self]
    exact fetched
  | some it =>
    have value : it.value = plain.top.coins key := value
    refine ⟨⟨value, fun _ => rfl⟩, ?_⟩
    have sound : Sound (plain.next.coins key) it := fetched.sound key it held
    dsimp only
    split_ifs with fresh
    · have erased := fetched.erase key
      rw [sound.absent fresh] at erased
      exact erased
    · rw [Bool.not_eq_true] at fresh
      have erased : Sound (plain.next.coins key) { it with value := none, dirty := true } := by
        rw [fresh]
        exact sound_erase _
      exact fetched.insert erased

private theorem uncache_refines (represents : Represents stack plain) (key : CoinKey) :
    Represents { stack with top := stack.top.uncache key } plain := by
  unfold CCoinsViewCache.uncache
  cases held : stack.top.cacheCoins.lookup key with
  | none => exact represents
  | some it =>
    dsimp only
    split_ifs with flagged
    · exact represents
    · rw [Bool.or_eq_true, not_or, Bool.not_eq_true] at flagged
      have erased := represents.erase key
      have repeated : plain.next.coins key = plain.top.coins key := by
        rw [← represents.coins_eq key, held]
        exact ((represents.sound key it held).clean flagged.1).symm
      rw [repeated, Function.update_eq_self] at erased
      exact erased

variable (sizeEstimate : List DbOp → ℕ) (batch_write_bytes : ℕ)

/-- What `Flush` and `Sync` begin with: the view below becomes equal to the topmost one, whose cache
may then hold any coins that agree with it. -/
private theorem write_refines (represents : Represents stack plain)
    (block : plain.rest = [] → plain.top.best ≠ 0) :
    ∃ written, stack.write sizeEstimate batch_write_bytes = .ok written ∧
      (∀ key entry, written.top.cacheCoins.lookup key = some entry →
        entry.value = plain.top.coins key) ∧
      ∀ cacheCoins : CacheCoins,
        (∀ key, SoundCell (plain.top.coins key) (cacheCoins.lookup key)) →
        (∀ key, read (plain.top.coins key) (cacheCoins.lookup key) = plain.top.coins key) →
        Represents { written with top := { written.top with cacheCoins } } plain.write := by
  obtain ⟨known, below⟩ := digiDollarState_levels stack.db stack.below
  obtain ⟨answer, loaded, unchanged⟩ := getDigiDollarState_reads stack.db stack.top below known
  rw [represents.top_eq] at answer
  have represents := represents.unchanged unchanged
  unfold CoinsStack.write
  dsimp only
  generalize stack.top.getDigiDollarState stack.db stack.below _ =
    state at answer loaded represents ⊢
  obtain ⟨known, below⟩ := bestBlock_levels stack.db state.2.2
  obtain ⟨best, kept, unchanged⟩ := getBestBlock_reads stack.db state.2.1 below known
  rw [represents.top_eq] at best kept
  have represents := represents.unchanged unchanged
  generalize state.2.1.getBestBlock state.2.2 _ = result at best kept represents ⊢
  obtain ⟨hash, top, below⟩ := result
  dsimp only at best kept represents
  subst best kept
  obtain ⟨db, below', ok, coherent, states⟩ := @writeBelow_writes stack.db _ plain.top.best state.1
    sizeEstimate batch_write_bytes below represents.coherent.2 represents.coherent.1
    (by rw [answer]; exact plain.top.answer_accepted)
    (fun bottom => block (represents.bottom_iff.mp bottom))
    (fun null => best_below (represents.top_eq ▸ null))
  have written : writtenState (stateOf stack.db below) state.2.1.cacheCoins plain.top.best state.1 =
      { plain.top with record := plain.top.answer } := by
    ext1
    · funext key
      change read ((stateOf stack.db below).coins key) _ = _
      rw [represents.next_eq]
      exact represents.coins_eq key
    · rfl
    · exact answer
  rw [represents.below_eq, written, List.tail_cons] at states
  rw [ok]
  refine ⟨⟨_, below', db⟩, rfl, ?_, ?_⟩
  · intro key entry held
    rw [← represents.coins_eq key]
    dsimp only at held ⊢
    rw [held]
    rfl
  · intro cacheCoins sound same
    have below : stateOf db below' = { plain.top with record := plain.top.answer } := by
      have head := head_statesOf db below'
      rw [states] at head
      exact (Option.some.inj head).symm
    refine ⟨⟨?_, coherent⟩, ?_⟩
    · dsimp only
      rw [below]
      exact sound
    · rw [statesOf, states, stateOf, below]
      refine congrArg (· :: _) ?_
      ext1
      · exact funext same
      · exact ite_self _
      · have record := congrArg CoinsState.record represents.top_state
        dsimp only [CCoinsViewCache.state] at record ⊢
        rw [if_pos loaded] at record ⊢
        exact record

private theorem flush_refines (represents : Represents stack plain)
    (block : plain.rest = [] → plain.top.best ≠ 0) :
    ∃ flushed, stack.flush sizeEstimate batch_write_bytes = .ok flushed ∧
      Represents flushed plain.write := by
  obtain ⟨written, ok, _, represented⟩ :=
    write_refines sizeEstimate batch_write_bytes represents block
  refine ⟨_, ?_, represented ∅ (fun _ => soundCell_none) (fun _ => rfl)⟩
  rw [CoinsStack.flush, ok]
  rfl

private theorem syncEntry_cleans (cacheCoins : CacheCoins) (key : CoinKey)
    (entry : Entry UnspentCoin) :
    ∃ cleaned, syncEntry cacheCoins ⟨key, entry⟩ = .ok cleaned ∧ ∀ other, cleaned.lookup other =
      if other = key then entry.value.map fun value =>
        ⟨some value, false, false⟩ else cacheCoins.lookup other := by
  obtain ⟨value, dirty, fresh⟩ := entry
  cases value with
  | none => exact ⟨_, rfl, fun other => lookup_erase_eq _ _ _⟩
  | some coin => exact ⟨_, rfl, fun other => lookup_insert_eq _ _ _ _⟩

private theorem sync_refines (represents : Represents stack plain)
    (block : plain.rest = [] → plain.top.best ≠ 0) :
    ∃ synced, stack.sync sizeEstimate batch_write_bytes = .ok synced ∧
      Represents synced plain.write := by
  obtain ⟨written, ok, values, represented⟩ :=
    write_refines sizeEstimate batch_write_bytes represents block
  obtain ⟨cleaned, folded, missing, cells⟩ := lookup_foldlM
    (fun entry _ => entry.value.map fun value => ⟨some value, false, false⟩)
      written.top.cacheCoins.nodupKeys
    written.top.cacheCoins (fun m key entry _ _ => syncEntry_cleans m key entry)
  have cell : ∀ key, cleaned.lookup key = none ∨
      ∃ coin, plain.top.coins key = some coin ∧
      cleaned.lookup key = some ⟨some coin, false, false⟩ := by
    intro key
    cases held : written.top.cacheCoins.lookup key with
    | none => exact .inl ((missing key (AList.lookup_eq_none.mp held)).trans held)
    | some entry =>
      rw [cells key entry (AList.mem_lookup_iff.mp held), ← values key entry held]
      cases entry.value with
      | none => exact .inl rfl
      | some coin => exact .inr ⟨coin, rfl, rfl⟩
  refine ⟨_, ?_, represented cleaned ?_ ?_⟩
  · rw [CoinsStack.sync, ok]
    change (do
      let cacheCoins ← written.top.cacheCoins.entries.foldlM syncEntry written.top.cacheCoins
      Except.ok { written with top := { written.top with cacheCoins } }) = _
    rw [folded]
    rfl
  · intro key
    rcases cell key with absent | ⟨coin, value, held⟩
    · rw [absent]
      exact soundCell_none
    · rw [held, value]
      exact soundCell_some.mpr (sound_written coin)
  · intro key
    rcases cell key with absent | ⟨coin, value, held⟩
    · rw [absent]
      rfl
    · rw [held, value]
      rfl

private theorem discard_refines (represents : Represents stack plain) :
    ∃ dropped, stack.step sizeEstimate batch_write_bytes .discard = .ok (.done, dropped) ∧
      Represents dropped (plain.step .discard).2 := by
  obtain ⟨top, below, db⟩ := stack
  obtain ⟨state, next, rest⟩ := plain
  have bottom := represents.bottom_iff
  cases below with
  | nil =>
    cases rest with
    | nil => exact ⟨_, rfl, represents⟩
    | cons first rest => cases bottom.mp rfl
  | cons cache below =>
    cases rest with
    | nil => cases bottom.mpr rfl
    | cons first rest => exact ⟨_, rfl, represents.coherent.2, represents.below_eq⟩

theorem CoinsReply.agrees_refl (reply : CoinsReply) : reply.Agrees reply := by
  cases reply with
  | done => rfl
  | coin coin => rfl
  | spent returned moveout => exact ⟨rfl, id⟩
  | block hash => rfl
  | state state => rfl

theorem CoinsStack.step_refines (represents : Represents stack plain) {op : CoinsOp}
    (permits : plain.Permits op) :
    ∃ reply stack', stack.step sizeEstimate batch_write_bytes op = .ok (reply, stack') ∧
      reply.Agrees (plain.step op).1 ∧ Represents stack' (plain.step op).2 := by
  cases op with
  | getCoin key =>
    obtain ⟨fetched, _, value⟩ := fetchCoin_represents represents key
    refine ⟨_, _, rfl, ?_, fetched⟩
    rw [value]
    exact CoinsReply.agrees_refl _
  | addCoin key coin possible_overwrite =>
    obtain ⟨top, ok, added⟩ := addCoin_refines represents permits
    refine ⟨.done, _, by rw [CoinsStack.step, ok]; rfl, ?_, added⟩
    unfold PlainStack.step
    dsimp only
    split_ifs
    · rfl
    · rfl
  | spendCoin key =>
    obtain ⟨agrees, spent⟩ := spendCoin_refines represents key
    exact ⟨_, _, rfl, agrees, spent⟩
  | uncache key => exact ⟨_, _, rfl, rfl, uncache_refines represents key⟩
  | getBestBlock =>
    obtain ⟨known, below⟩ := bestBlock_levels stack.db stack.below
    obtain ⟨best, _, unchanged⟩ := getBestBlock_reads stack.db stack.top below known
    refine ⟨_, _, rfl, ?_, represents.unchanged unchanged⟩
    rw [best, represents.top_eq]
    exact CoinsReply.agrees_refl _
  | setBestBlock hashBlock =>
    have replaced :=
      @Represents.replace stack plain (stack.top.setBestBlock hashBlock) represents represents.sound
    refine ⟨_, _, rfl, rfl, ?_⟩
    rw [show (stack.top.setBestBlock hashBlock).state plain.next = { stack.top.state plain.next with
      best := if hashBlock = 0 then plain.next.best else hashBlock } from rfl, represents.top_state]
        at replaced
    exact replaced
  | getDigiDollarState =>
    obtain ⟨known, below⟩ := digiDollarState_levels stack.db stack.below
    obtain ⟨answer, _, unchanged⟩ := getDigiDollarState_reads stack.db stack.top below known
    refine ⟨_, _, rfl, ?_, represents.unchanged unchanged⟩
    rw [answer, represents.top_eq]
    exact CoinsReply.agrees_refl _
  | setDigiDollarState state =>
    have replaced := @Represents.replace stack plain (stack.top.setDigiDollarState state) represents
      represents.sound
    refine ⟨_, _, rfl, rfl, ?_⟩
    rw [show (stack.top.setDigiDollarState state).state plain.next =
      { stack.top.state plain.next with
      record := state } from rfl, represents.top_state] at replaced
    exact replaced
  | flush =>
    obtain ⟨flushed, ok, represented⟩ :=
      flush_refines sizeEstimate batch_write_bytes represents permits
    exact ⟨.done, flushed, by rw [CoinsStack.step, ok]; rfl, rfl, represented⟩
  | sync =>
    obtain ⟨synced, ok, represented⟩ :=
      sync_refines sizeEstimate batch_write_bytes represents permits
    exact ⟨.done, synced, by rw [CoinsStack.step, ok]; rfl, rfl, represented⟩
  | layer =>
    refine ⟨_, _, rfl, rfl, ⟨fun key => soundCell_none, represents.coherent⟩, ?_⟩
    rw [statesOf]
    dsimp only
    rw [represents.states]
    refine congrArg (· :: _) ?_
    rw [stateOf, represents.top_eq]
    rfl
  | discard =>
    obtain ⟨dropped, ok, represented⟩ := discard_refines sizeEstimate batch_write_bytes represents
    refine ⟨.done, dropped, ok, ?_, represented⟩
    unfold PlainStack.step
    dsimp only
    cases plain.rest with
    | nil => rfl
    | cons first rest => rfl

/-- A run whose caller keeps its promises never fails, and its replies are those of the plain
states. -/
theorem CoinsStack.run_refines (represents : Represents stack plain) {ops : List CoinsOp}
    (permits : plain.PermitsAll ops) :
    ∃ replies stack', stack.run sizeEstimate batch_write_bytes ops = .ok (replies, stack') ∧
      List.Forall₂ CoinsReply.Agrees replies (plain.run ops).1 ∧
      Represents stack' (plain.run ops).2 := by
  induction ops generalizing stack plain with
  | nil => exact ⟨[], stack, rfl, .nil, represents⟩
  | cons op ops ih =>
    obtain ⟨reply, stepped, first, agrees, represented⟩ :=
      CoinsStack.step_refines sizeEstimate batch_write_bytes represents permits.1
    obtain ⟨replies, final, rest, agreeing, representing⟩ := ih represented permits.2
    refine ⟨reply :: replies, final, ?_, .cons agrees agreeing, representing⟩
    rw [CoinsStack.run, first]
    change (do
      let rest ← CoinsStack.run sizeEstimate batch_write_bytes stepped ops
      Except.ok (reply :: rest.1, rest.2)) = _
    rw [rest]
    rfl

end Steps

/-! The walk over the caches that a run leaves. -/

section Walks

variable {db : CoinsDB} {base : CCoinsView}

/-- The maps of the caches as the walk takes them, the lowest one first. -/
def cacheMaps (levels : List CCoinsViewCache) : List CCoinsMap :=
  (levels.map fun cache => cache.cacheCoins.toMap).reverse

private theorem cacheMaps_cons (cache : CCoinsViewCache) (levels : List CCoinsViewCache) :
    cacheMaps (cache :: levels) = cacheMaps levels ++ [cache.cacheCoins.toMap] := by
  rw [cacheMaps, List.map_cons, List.reverse_cons]
  rfl

private theorem stackView_concat (base : CCoinsView) (caches : List CCoinsMap) (cache : CCoinsMap) :
    stackView base (caches ++ [cache]) = cCoinsViewCache (stackView base caches) cache :=
  List.foldl_concat _ _ _ _

private theorem stackAgrees_concat {caches : List CCoinsMap} {cache : CCoinsMap}
    (agrees : StackAgrees base caches)
    (last : cache.Agrees (stackView base caches)) : StackAgrees base (caches ++ [cache]) := by
  induction caches generalizing base with
  | nil => exact ⟨last, trivial⟩
  | cons first rest ih => exact ⟨agrees.1, ih agrees.2 last⟩

private theorem find_toMap (mapCoins : CacheCoins) (key : CoinKey) :
    mapCoins.toMap.find key =
      (mapCoins.lookup key).map fun it =>
        ⟨(it.value.map Subtype.val).getD coinEmpty, it.dirty⟩ := by
  ext entry
  rw [CCoinsMap.find_eq_some, mem_toMap, Option.map_eq_some_iff]
  constructor
  · rintro ⟨it, held, rfl⟩
    exact ⟨it, held, rfl⟩
  · rintro ⟨it, held, rfl⟩
    exact ⟨it, held, rfl⟩

private theorem unspent_entry (value : Option UnspentCoin) (dirty : Bool) :
    CCoinsCacheEntry.unspent ⟨(value.map Subtype.val).getD coinEmpty, dirty⟩ =
      value.map Subtype.val := by
  cases value with
  | none => rfl
  | some coin => simp [CCoinsCacheEntry.unspent, coin.property]

theorem unspentCoin_levels
    (reads : ∀ key, base.unspentCoin key = (db.state.coins key).map Subtype.val)
    (levels : List CCoinsViewCache) (key : CoinKey) :
    (stackView base (cacheMaps levels)).unspentCoin key =
    ((stateOf db levels).coins key).map Subtype.val := by
  induction levels with
  | nil => exact reads key
  | cons cache rest ih =>
    rw [cacheMaps_cons, stackView_concat, unspentCoin_cache, find_toMap, ih]
    change _ = (read ((stateOf db rest).coins key) (cache.cacheCoins.lookup key)).map Subtype.val
    cases cache.cacheCoins.lookup key with
    | none => rfl
    | some it => exact unspent_entry it.value it.dirty

theorem stackAgrees_levels
    (reads : ∀ key, base.unspentCoin key = (db.state.coins key).map Subtype.val)
    {levels : List CCoinsViewCache} (coherent : Coherent db levels) :
    StackAgrees base (cacheMaps levels) := by
  induction levels with
  | nil => trivial
  | cons cache rest ih =>
    rw [cacheMaps_cons]
    refine stackAgrees_concat (ih coherent.2) ?_
    intro key entry member clean
    obtain ⟨it, held, rfl⟩ := mem_toMap.mp member
    rw [unspent_entry, unspentCoin_levels reads, (coherent.1 key it held).clean clean]

end Walks

/-! Runs on a new cache over the database. -/

section Runs

variable (sizeEstimate : List DbOp → ℕ) (batch_write_bytes : ℕ)

def CoinsStack.new (db : CoinsDB) : CoinsStack where
  top := {}
  below := []
  db := db

/-- A database under a cache that answers the same. -/
def PlainStack.new (db : CoinsDB) : PlainStack where
  top := db.state
  next := db.state
  rest := []

theorem represents_new {db : CoinsDB} (finished : db.headBlocks = none) :
    Represents (CoinsStack.new db) (PlainStack.new db) := by
  refine ⟨⟨fun _ => soundCell_none, finished⟩, ?_⟩
  refine congrArg (· :: _) ?_
  ext1
  · rfl
  · rfl
  · exact db.state_answer

/-- On a database without an unfinished write, a run whose caller keeps its promises never fails:
no fresh flag is misapplied and no write is refused. It leaves in every cache and in the database
what plain maps without caches hold, and answers as they do, except that `SpendCoin` may also
return true for a coin that the cache holds as spent. -/
theorem coins_cache_refines_plain (db : CoinsDB) (ops : List CoinsOp)
    (finished : db.headBlocks = none) (permits : (PlainStack.new db).PermitsAll ops) :
    ∃ replies stack, (CoinsStack.new db).run sizeEstimate batch_write_bytes ops =
      .ok (replies, stack) ∧
      List.Forall₂ CoinsReply.Agrees replies ((PlainStack.new db).run ops).1 ∧
      statesOf stack.db (stack.top :: stack.below) = ((PlainStack.new db).run ops).2.states := by
  obtain ⟨replies, stack, ran, agrees, represents⟩ :=
    CoinsStack.run_refines sizeEstimate batch_write_bytes (represents_new finished) permits
  exact ⟨replies, stack, ran, agrees, represents.states⟩

/-- After such a run the walk over the caches, on a walk over the database that is exact, hands out
exactly the coins of the topmost plain map, once each and in key order. -/
theorem coins_walk_after_run (db : CoinsDB) (ops : List CoinsOp) (finished : db.headBlocks = none)
    (permits : (PlainStack.new db).PermitsAll ops) :
    ∃ replies stack, (CoinsStack.new db).run sizeEstimate batch_write_bytes ops =
      .ok (replies, stack) ∧
      ∀ base : CCoinsView, base.WalksExactly →
        (∀ key, base.unspentCoin key = (stack.db.state.coins key).map Subtype.val) →
        (stackView base (cacheMaps (stack.top :: stack.below))).WalksExactly ∧
        ∀ key, (stackView base (cacheMaps (stack.top :: stack.below))).unspentCoin key =
          (((PlainStack.new db).run ops).2.top.coins key).map Subtype.val := by
  obtain ⟨replies, stack, ran, _, represents⟩ :=
    CoinsStack.run_refines sizeEstimate batch_write_bytes (represents_new finished) permits
  refine ⟨replies, stack, ran, ?_⟩
  intro base walks reads
  refine ⟨walksExactly_stack walks (stackAgrees_levels reads represents.coherent), ?_⟩
  intro key
  rw [unspentCoin_levels reads, represents.top_eq]

private theorem entryAttr_of_sound {below : Option UnspentCoin} {entry : Entry UnspentCoin}
    (sound : Sound below entry) :
    entryAttr entry ≠ 2 ∧ entryAttr entry ≠ 4 ∧ entryAttr entry ≠ 7 := by
  obtain ⟨value, dirty, fresh⟩ := entry
  obtain ⟨clean, absent, marked⟩ := sound
  unfold entryAttr
  dsimp only at clean absent marked ⊢
  cases value with
  | none =>
    have differ := marked rfl
    revert differ
    cases dirty <;> cases fresh <;> decide
  | some coin =>
    cases dirty with
    | true => cases fresh <;> simp
    | false =>
      cases fresh with
      | true =>
        rw [absent rfl] at clean
        cases clean rfl
      | false => simp

private theorem sanityCheck_levels {db : CoinsDB} {levels : List CCoinsViewCache}
    (coherent : Coherent db levels) :
    ∀ cache ∈ levels, cache.sanityCheck = true := by
  induction levels with
  | nil => simp
  | cons cache rest ih =>
    intro other member
    rcases List.mem_cons.mp member with rfl | later
    · unfold CCoinsViewCache.sanityCheck
      rw [List.all_eq_true]
      intro it held
      have attr := entryAttr_of_sound (coherent.1 it.1 it.2 (AList.mem_lookup_iff.mpr held))
      simp [attr]
    · exact ih coherent.2 other later

/-- After such a run every cache passes its sanity check. -/
theorem coins_caches_sane (db : CoinsDB) (ops : List CoinsOp) (finished : db.headBlocks = none)
    (permits : (PlainStack.new db).PermitsAll ops) :
    ∃ replies stack, (CoinsStack.new db).run sizeEstimate batch_write_bytes ops =
      .ok (replies, stack) ∧
      ∀ cache ∈ stack.top :: stack.below, cache.sanityCheck = true := by
  obtain ⟨replies, stack, ran, _, represents⟩ :=
    CoinsStack.run_refines sizeEstimate batch_write_bytes (represents_new finished) permits
  exact ⟨replies, stack, ran, sanityCheck_levels represents.coherent⟩

end Runs

namespace CacheSample

open WalkSample (spentKey newKey coin)

def database : CoinsDB where
  coins key := if key = spentKey then some (coin 5) else none
  bestBlock := some 1

/-- A coin is spent and another added in a cache of their own, written down one cache at a time. -/
def ops : List CoinsOp :=
  [.layer, .spendCoin spentKey, .addCoin newKey (coin 8) false, .setBestBlock 3, .flush, .discard,
    .getCoin spentKey, .getCoin newKey, .sync]

theorem ops_permitted : (PlainStack.new database).PermitsAll ops :=
  ⟨trivial, trivial, ⟨rfl, .inr (.inr (by decide +kernel))⟩, trivial,
    (fun bottom => by cases bottom), trivial, trivial,
    trivial, (fun _ => by decide +kernel), trivial⟩

theorem written_down : (PlainStack.new database).PermitsAll ops ∧
    ∃ replies stack, (CoinsStack.new database).run List.length 0 ops = .ok (replies, stack) ∧
      List.Forall₂ CoinsReply.Agrees replies ((PlainStack.new database).run ops).1 ∧
      statesOf stack.db (stack.top :: stack.below) = ((PlainStack.new database).run ops).2.states :=
  ⟨ops_permitted, coins_cache_refines_plain List.length 0 database ops rfl ops_permitted⟩

private theorem written_coins (key : CoinKey) :
    ((PlainStack.new database).run ops).2.next.coins key =
    if key = newKey then some ⟨coin 8, rfl⟩ else none := by
  change Function.update (Function.update database.state.coins spentKey none) newKey
    (unspentOf (coin 8)) key = _
  rw [Function.update_apply, Function.update_apply]
  split_ifs with new spent
  · rfl
  · rfl
  · simp [CoinsDB.state, database, spent]

theorem written_walk :
    ∃ replies stack, (CoinsStack.new database).run List.length 0 ops = .ok (replies, stack) ∧
      (stackView (cCoinsViewDB [(newKey, coin 8)])
        (cacheMaps (stack.top :: stack.below))).WalksExactly := by
  obtain ⟨replies, stack, ran, walks⟩ :=
    coins_walk_after_run List.length 0 database ops rfl ops_permitted
  obtain ⟨_, _, ran', _, represents⟩ :=
    CoinsStack.run_refines List.length 0 (represents_new (rfl : database.headBlocks = none))
      ops_permitted
  cases ran.symm.trans ran'
  refine ⟨replies, stack, ran, (walks (cCoinsViewDB [(newKey, coin 8)]) ?_ ?_).1⟩
  · exact walksExactly_cCoinsViewDB (Library.Overlay.increasing_cons.mpr ⟨by simp, .nil⟩)
      (by decide)
  · intro key
    rw [represents.db_state rfl, written_coins, CCoinsView.unspentCoin]
    by_cases new : key = newKey
    · subst new
      rfl
    · have differs : (key == newKey) = false := by simpa using new
      simp [cCoinsViewDB, List.lookup_cons, new, differs]

theorem written_sane :
    ∃ replies stack, (CoinsStack.new database).run List.length 0 ops = .ok (replies, stack) ∧
      ∀ cache ∈ stack.top :: stack.below, cache.sanityCheck = true :=
  coins_caches_sane List.length 0 database ops rfl ops_permitted

end CacheSample

end DigiByte.Coins
