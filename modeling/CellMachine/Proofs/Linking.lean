import CellMachine.Peripheral.Firmware

/-!
# Linking

A script is linked by names and calls by numbers. Both mean the same function:

* `Registry.Recounts r past since`: of all functions `past` that were ever registered, `r` knows
  those from number `since` on, each under its place in `past`. Registering adds to the end of
  `past` and clearing moves `since` there, so that no number ever changes hands
  (`Registry.run_recounts`);
* `Firmware.Holds`: peripherals, number by number, with registries that recount their functions;
* `linking_agrees_with_dispatch`: whatever was installed, a name is resolved to the id under which
  the function is found that was registered last under the name, if it is resolved at all; and no
  registry hands out an id twice.
-/

namespace CellMachine

/-! ## Function ids -/

namespace FunctionId

theorem toNat_make (p f : UInt16) :
    (make p f).raw.toUInt32.toNat = p.toNat * 65536 + f.toNat := by
  have hp := p.toNat_lt
  have hf := f.toNat_lt
  simp only [make, UInt32.toUInt32_toInt32, UInt32.toNat_ofNat']
  omega

@[simp] theorem peripheral_make (p f : UInt16) : (make p f).peripheral = p.toNat := by
  have hf := f.toNat_lt
  rw [peripheral, toNat_make]
  omega

@[simp] theorem function_make (p f : UInt16) : (make p f).function = f.toNat := by
  have hf := f.toNat_lt
  rw [function, toNat_make]
  omega

-- the upper half of the peripherals has negative ids
example : (make 65535 1).raw.toInt = -65535 ∧ (make 65535 1).peripheral = 65535 := by decide

end FunctionId

/-! ## What a registry knows -/

namespace Registry

/-- Among functions in the order they were registered, number `id` is the last one of a name. -/
structure Latest (past : List (String × HostFunction)) (name : String) (id : Nat)
    (f : HostFunction) : Prop where
  entry : past[id]? = some (name, f)
  last : ∀ j g, id < j → past[j]? ≠ some (name, g)

namespace Latest

variable {past : List (String × HostFunction)} {name name' : String} {id id' : Nat}
  {f f' : HostFunction}

theorem lt (h : Latest past name id f) : id < past.length :=
  (List.getElem?_eq_some_iff.1 h.entry).1

theorem unique (h : Latest past name id f) (h' : Latest past name id' f') : id = id' ∧ f = f' := by
  have hid : id = id' := by
    rcases Nat.lt_trichotomy id id' with hlt | heq | hlt
    · exact absurd h'.entry (h.last id' f' hlt)
    · exact heq
    · exact absurd h.entry (h'.last id f hlt)
  subst hid
  have hentry := h.entry.symm.trans h'.entry
  simp only [Option.some.injEq, Prod.mk.injEq, true_and] at hentry
  exact ⟨rfl, hentry⟩

/-- A function that is registered now is the last one of its name. -/
theorem concat_self (past : List (String × HostFunction)) (name : String) (f : HostFunction) :
    Latest (past ++ [(name, f)]) name past.length f := by
  refine ⟨by simp, fun j g hj => ?_⟩
  rw [List.getElem?_eq_none (by simp; omega)]
  rintro ⟨⟩

/-- It is nothing to other names. -/
theorem concat_of_ne (hne : name' ≠ name) :
    Latest (past ++ [(name, f)]) name' id f' ↔ Latest past name' id f' := by
  have hentry : ∀ (j : Nat) (g : HostFunction),
      (past ++ [(name, f)])[j]? = some (name', g) ↔ past[j]? = some (name', g) := by
    intro j g
    rcases Nat.lt_trichotomy j past.length with hlt | heq | hgt
    · rw [List.getElem?_append_left hlt]
    · subst heq
      simp [Ne.symm hne]
    · rw [List.getElem?_eq_none (by simp; omega), List.getElem?_eq_none (by omega)]
  constructor
  · intro h
    exact ⟨(hentry _ _).1 h.entry, fun j g hj hg => h.last j g hj ((hentry j g).2 hg)⟩
  · intro h
    exact ⟨(hentry _ _).2 h.entry, fun j g hj hg => h.last j g hj ((hentry j g).1 hg)⟩

end Latest

/-- Of all functions that were ever registered, in order, the registry knows those from number
`since` on. -/
structure Recounts (r : Registry) (past : List (String × HostFunction)) (since : Nat) : Prop where
  next : r.nextId = past.length
  counted : past.length ≤ maxFunctions
  since_le : since ≤ past.length
  function : ∀ id, r.function? id = if since ≤ id then past[id]?.map Prod.snd else none
  name : ∀ name id, r.resolve? name = some id ↔ since ≤ id ∧ ∃ f, Latest past name id f

/-- A registry takes as many functions as it has ids left. -/
theorem exists_registerAll {r : Registry} {functions : List (String × HostFunction)}
    (h : r.nextId + functions.length ≤ maxFunctions) : ∃ r', r.registerAll functions = .ok r' := by
  induction functions generalizing r with
  | nil => exact ⟨r, rfl⟩
  | cons entry rest ih =>
    obtain ⟨name, f⟩ := entry
    rw [List.length_cons] at h
    have hlt : r.nextId < maxFunctions := by omega
    rw [registerAll, register, if_pos hlt]
    refine ih ?_
    dsimp only
    omega

namespace Recounts

variable {r r' : Registry} {past : List (String × HostFunction)} {since : Nat}

theorem empty : ({} : Registry).Recounts [] 0 where
  next := rfl
  counted := Nat.zero_le _
  since_le := Nat.le_refl _
  function := by simp [function?]
  name name id := by
    simp only [resolve?, List.lookup_nil, reduceCtorEq, Nat.zero_le, true_and, false_iff]
    rintro ⟨f, hf⟩
    exact absurd hf.lt (Nat.not_lt_zero _)

/-- **Registering adds one function, under the next number.** -/
theorem register (h : r.Recounts past since) {name : String} {f : HostFunction} {id : Nat}
    (hr : r.register name f = .ok (id, r')) :
    id = past.length ∧ r'.Recounts (past ++ [(name, f)]) since := by
  unfold Registry.register at hr
  split at hr
  · rename_i hlt
    obtain ⟨rfl, rfl⟩ := Prod.mk.inj (Except.ok.inj hr)
    refine ⟨h.next, ?_⟩
    rw [h.next] at hlt ⊢
    have hsince := h.since_le
    constructor
    · simp
    · simp only [List.length_append, List.length_singleton]
      omega
    · simp only [List.length_append, List.length_singleton]
      omega
    · intro id
      have hold := h.function id
      simp only [function?, List.lookup_cons] at hold ⊢
      rcases Nat.lt_trichotomy id past.length with hid | hid | hid
      · rw [beq_false_of_ne (by omega), List.getElem?_append_left hid]
        exact hold
      · subst hid
        simp [hsince]
      · rw [beq_false_of_ne (by omega), List.getElem?_eq_none (by simp; omega)]
        rw [List.getElem?_eq_none (by omega)] at hold
        exact hold
    · intro name' id
      have hold := h.name name' id
      simp only [resolve?, List.lookup_cons] at hold ⊢
      by_cases hname : name' = name
      · subst hname
        simp only [beq_self_eq_true, Option.some.injEq]
        constructor
        · rintro rfl
          exact ⟨hsince, f, .concat_self past name' f⟩
        · rintro ⟨-, g, hg⟩
          exact ((Latest.concat_self past name' f).unique hg).1
      · rw [beq_false_of_ne hname]
        simp only [Latest.concat_of_ne hname]
        exact hold
  · cases hr

theorem registerAll (h : r.Recounts past since) {functions : List (String × HostFunction)}
    (hr : r.registerAll functions = .ok r') : r'.Recounts (past ++ functions) since := by
  induction functions generalizing r past with
  | nil =>
    obtain rfl := Except.ok.inj hr
    simpa using h
  | cons entry rest ih =>
    obtain ⟨name, f⟩ := entry
    rw [Registry.registerAll] at hr
    split at hr
    · rename_i id r₁ hr₁
      have hrest := ih (h.register hr₁).2 hr
      rwa [List.append_assoc, List.singleton_append] at hrest
    · cases hr

/-- **Clearing forgets everything and keeps the count.** -/
theorem clear (h : r.Recounts past since) : r.clear.Recounts past past.length where
  next := h.next
  counted := h.counted
  since_le := Nat.le_refl _
  function id := by
    have hnone : past.length ≤ id → past[id]?.map Prod.snd = none := by
      intro hid
      rw [List.getElem?_eq_none hid]
      rfl
    by_cases hid : past.length ≤ id
    · rw [if_pos hid, hnone hid]
      rfl
    · rw [if_neg hid]
      rfl
  name name id := by
    simp only [resolve?, Registry.clear, List.lookup_nil, reduceCtorEq, false_iff]
    rintro ⟨hid, f, hf⟩
    exact absurd hf.lt (Nat.not_lt.2 hid)

end Recounts

/-! ## Any history of a registry -/

/-- What is done to a registry. -/
inductive Action where
  | register (name : String) (f : HostFunction)
  | clear

/-- The registry after an action, and the id that was handed out. -/
def act (r : Registry) : Action → Registry × List Nat
  | .register name f =>
    match r.register name f with
    | .ok (id, r) => (r, [id])
    | .error _ => (r, [])
  | .clear => (r.clear, [])

/-- The registry after a history, and all ids that were handed out. -/
def run (r : Registry) : List Action → Registry × List Nat
  | [] => (r, [])
  | action :: rest =>
    let (r, ids) := r.act action
    let (r, ids') := run r rest
    (r, ids ++ ids')

theorem run_cons (r : Registry) (action : Action) (rest : List Action) :
    r.run (action :: rest) =
      (((r.act action).1.run rest).1, (r.act action).2 ++ ((r.act action).1.run rest).2) :=
  rfl

theorem run_append (r : Registry) (before after : List Action) :
    r.run (before ++ after) =
      (((r.run before).1.run after).1, (r.run before).2 ++ ((r.run before).1.run after).2) := by
  induction before generalizing r with
  | nil => rfl
  | cons action rest ih => rw [List.cons_append, run_cons, run_cons, ih, List.append_assoc]

theorem act_recounts {r : Registry} {past : List (String × HostFunction)} {since : Nat}
    (h : r.Recounts past since) (action : Action) :
    ∃ new since', (r.act action).1.Recounts (past ++ new) since' ∧ since ≤ since' ∧
      (r.act action).2 = List.range' past.length new.length := by
  cases action with
  | register name f =>
    simp only [act]
    split
    · rename_i id r' hr
      obtain ⟨rfl, hnew⟩ := h.register hr
      exact ⟨[(name, f)], since, hnew, Nat.le_refl _, rfl⟩
    · exact ⟨[], since, by simpa using h, Nat.le_refl _, rfl⟩
  | clear => exact ⟨[], past.length, by simpa [act] using h.clear, h.since_le, rfl⟩

/-- **Numbers are handed out one after the other**, whatever is cleared in between. -/
theorem run_recounts {r : Registry} {past : List (String × HostFunction)} {since : Nat}
    (h : r.Recounts past since) (actions : List Action) :
    ∃ new since', (r.run actions).1.Recounts (past ++ new) since' ∧ since ≤ since' ∧
      (r.run actions).2 = List.range' past.length new.length := by
  induction actions generalizing r past since with
  | nil => exact ⟨[], since, by simpa [run] using h, Nat.le_refl _, rfl⟩
  | cons action rest ih =>
    obtain ⟨new, since₁, hact, hle, hids⟩ := act_recounts h action
    obtain ⟨new', since₂, hrest, hle', hids'⟩ := ih hact
    refine ⟨new ++ new', since₂, ?_, Nat.le_trans hle hle', ?_⟩
    · rw [run_cons, ← List.append_assoc]
      exact hrest
    · rw [run_cons]
      dsimp only
      rw [hids, hids', List.length_append, List.length_append, List.range'_append_1]

/-- What ids are worth after a history of a registry. -/
structure Numbered (actions : List Action) : Prop where
  /-- Ids count from zero, and no id is handed out twice. -/
  counted : ∃ n ≤ maxFunctions, (({} : Registry).run actions).2 = List.range n
  once : (({} : Registry).run actions).2.Nodup
  /-- An id that was handed out before the registry was cleared means nothing afterwards. -/
  forgotten : ∀ before after, actions = before ++ .clear :: after →
    ∀ id ∈ (({} : Registry).run before).2, (({} : Registry).run actions).1.function? id = none ∧
      ∀ name, (({} : Registry).run actions).1.resolve? name ≠ some id

theorem numbered (actions : List Action) : Numbered actions := by
  obtain ⟨new, since, hrun, -, hids⟩ := run_recounts Recounts.empty actions
  have hrange : (({} : Registry).run actions).2 = List.range new.length := by
    rw [hids, List.length_nil, List.range_eq_range']
  refine ⟨⟨new.length, hrun.counted, hrange⟩, ?_, ?_⟩
  · rw [hrange]
    exact List.nodup_range
  · rintro before after rfl id hid
    obtain ⟨past, since₀, hbefore, -, hhanded⟩ := run_recounts Recounts.empty before
    obtain ⟨later, since', hafter, hle, -⟩ := run_recounts hbefore.clear after
    -- the id is one of those that the clearing put behind
    have hlt : id < since' := by
      rw [hhanded, List.mem_range'_1] at hid
      simp only [List.length_nil, List.nil_append] at hid hle
      omega
    rw [run_append, run_cons]
    refine ⟨?_, fun name hname => ?_⟩
    · exact (hafter.function id).trans (if_neg (Nat.not_le.2 hlt))
    · exact absurd ((hafter.name name id).1 hname).1 (Nat.not_le.2 hlt)

end Registry

/-! ## What a firmware holds -/

/-- An installed peripheral recounts the functions of a peripheral; after they were withdrawn it
knows none of them. -/
structure Installed.Offers (withdrawn : Bool) (i : Installed) (p : Peripheral) : Prop where
  name : i.name = p.name
  registry : i.registry.Recounts p.functions (if withdrawn then p.functions.length else 0)

namespace Firmware

/-- The firmware has the peripherals in its places, each under a name of its own. -/
structure Holds (withdrawn : Bool) (fw : Firmware) (ps : List Peripheral) : Prop where
  length : fw.installed.length = ps.length
  offers : ∀ (n : Nat) (i : Installed) (p : Peripheral), fw.installed[n]? = some i →
    ps[n]? = some p → i.Offers withdrawn p
  names : (ps.map Peripheral.name).Nodup
  numbered : ps.length ≤ maxPeripherals

namespace Holds

variable {withdrawn : Bool} {fw fw' : Firmware} {ps : List Peripheral} {p q : Peripheral}
  {n m : Nat}

theorem exists_installed (h : fw.Holds withdrawn ps) (hp : ps[n]? = some p) :
    ∃ i, fw.installed[n]? = some i ∧ i.Offers withdrawn p := by
  have hlt : n < fw.installed.length := by
    rw [h.length]
    exact (List.getElem?_eq_some_iff.1 hp).1
  exact ⟨_, List.getElem?_eq_getElem hlt, h.offers n _ p (List.getElem?_eq_getElem hlt) hp⟩

theorem exists_peripheral (h : fw.Holds withdrawn ps) {i : Installed}
    (hi : fw.installed[n]? = some i) : ∃ p, ps[n]? = some p ∧ i.Offers withdrawn p := by
  have hlt : n < ps.length := by
    rw [← h.length]
    exact (List.getElem?_eq_some_iff.1 hi).1
  exact ⟨_, List.getElem?_eq_getElem hlt, h.offers n i _ hi (List.getElem?_eq_getElem hlt)⟩

theorem lt (h : fw.Holds withdrawn ps) (hp : ps[n]? = some p) : n < 65536 :=
  Nat.lt_of_lt_of_le (List.getElem?_eq_some_iff.1 hp).1 h.numbered

theorem place_unique (h : fw.Holds withdrawn ps) (hp : ps[n]? = some p) (hq : ps[m]? = some q)
    (hname : p.name = q.name) : n = m := by
  obtain ⟨hn, hpn⟩ := List.getElem?_eq_some_iff.1 hp
  obtain ⟨hm, hqm⟩ := List.getElem?_eq_some_iff.1 hq
  have hn' : n < (ps.map Peripheral.name).length := by simpa using hn
  have hm' : m < (ps.map Peripheral.name).length := by simpa using hm
  have hsame : (ps.map Peripheral.name)[n] = (ps.map Peripheral.name)[m] := by
    simp only [List.getElem_map, hpn, hqm, hname]
  exact (List.getElem_inj h.names).1 hsame

theorem any_name (h : fw.Holds withdrawn ps) (hp : ps[n]? = some p) {name : String}
    (hname : p.name = name) : (fw.installed.any fun i => i.name = name) = true := by
  obtain ⟨i, hi, hoffers⟩ := h.exists_installed hp
  refine List.any_eq_true.2 ⟨i, List.mem_of_getElem? hi, ?_⟩
  simpa [hoffers.name] using hname

theorem empty : ({} : Firmware).Holds false [] :=
  ⟨rfl, nofun, .nil, Nat.zero_le _⟩

/-- **A peripheral gets the next place**, if it gets one. -/
theorem install (h : fw.Holds false ps) (hp : fw.install p = .ok (n, fw')) :
    n = ps.length ∧ fw'.Holds false (ps ++ [p]) := by
  unfold Firmware.install at hp
  split at hp
  · cases hp
  · rename_i hnew
    split at hp
    · cases hp
    · rename_i hroom
      split at hp
      · rename_i registry hregistry
        obtain ⟨rfl, rfl⟩ := Prod.mk.inj (Except.ok.inj hp)
        refine ⟨h.length, ?_, ?_, ?_, ?_⟩
        · simp [h.length]
        · intro n i q hi hq
          rcases Nat.lt_trichotomy n ps.length with hlt | rfl | hgt
          · rw [List.getElem?_append_left (by rw [h.length]; exact hlt)] at hi
            rw [List.getElem?_append_left hlt] at hq
            exact h.offers n i q hi hq
          · rw [← h.length] at hi
            simp only [List.getElem?_concat_length, Option.some.injEq] at hi hq
            subst hi hq
            exact ⟨rfl, by simpa using Registry.Recounts.empty.registerAll hregistry⟩
          · rw [List.getElem?_eq_none (by simp; omega)] at hq
            cases hq
        · rw [List.map_append, List.map_singleton, List.nodup_append]
          refine ⟨h.names, by simp, ?_⟩
          rintro _ hq _ hname rfl
          obtain ⟨q, hmem, rfl⟩ := List.mem_map.1 hq
          obtain ⟨n, hn⟩ := List.mem_iff_getElem?.1 hmem
          exact hnew (h.any_name hn (List.mem_singleton.1 hname))
        · rw [List.length_append, List.length_singleton, ← h.length]
          omega
      · cases hp

/-- A peripheral whose name is new gets a place while there is one for it and its functions. -/
theorem install_new (h : fw.Holds false ps)
    (hnew : ∀ (n : Nat) q, ps[n]? = some q → q.name ≠ p.name)
    (hroom : ps.length < maxPeripherals) (hfew : p.functions.length ≤ Registry.maxFunctions) :
    ∃ fw', fw.install p = .ok (ps.length, fw') := by
  have hunused : ¬ (fw.installed.any fun i => i.name = p.name) = true := by
    intro hany
    obtain ⟨i, hi, hname⟩ := List.any_eq_true.1 hany
    obtain ⟨n, hn⟩ := List.mem_iff_getElem?.1 hi
    obtain ⟨q, hq, hoffers⟩ := h.exists_peripheral hn
    exact hnew n q hq (hoffers.name.symm.trans (of_decide_eq_true hname))
  have hplace : ¬ maxPeripherals ≤ fw.installed.length := by
    rw [h.length]
    exact Nat.not_le.2 hroom
  have hids : ({} : Registry).nextId + p.functions.length ≤ Registry.maxFunctions := by
    rw [Nat.zero_add]
    exact hfew
  obtain ⟨registry, hregistry⟩ := Registry.exists_registerAll hids
  rw [Firmware.install, if_neg hunused, if_neg hplace, hregistry, h.length]
  exact ⟨_, rfl⟩

theorem dispose (h : fw.Holds withdrawn ps) : fw.dispose.Holds true ps := by
  refine ⟨by simpa [Firmware.dispose] using h.length, ?_, h.names, h.numbered⟩
  intro n i p hi hp
  obtain ⟨j, hj, hoffers⟩ := h.exists_installed hp
  simp only [Firmware.dispose, List.getElem?_map, hj, Option.map_some, Option.some.injEq] at hi
  subst hi
  exact ⟨hoffers.name, hoffers.registry.clear⟩

/-- **Which names are resolved, and to which ids.** -/
theorem resolve?_eq_some (h : fw.Holds withdrawn ps) {peripheral function : String}
    {id : FunctionId} :
    fw.resolve? peripheral function = some id ↔ withdrawn = false ∧
      ∃ n p m f, ps[n]? = some p ∧ p.name = peripheral ∧
        Registry.Latest p.functions function m f ∧ m < 65536 ∧
        id = .make (UInt16.ofNat n) (UInt16.ofNat m) := by
  simp only [resolve?, Option.bind_eq_bind, Option.bind_eq_some_iff]
  constructor
  · rintro ⟨n, hfind, i, hi, m, hm, hid⟩
    obtain ⟨p, hp, hoffers⟩ := h.exists_peripheral hi
    obtain ⟨hsince, f, hlatest⟩ := (hoffers.registry.name function m).1 hm
    obtain ⟨hlt, hname, -⟩ := List.findIdx?_eq_some_iff_getElem.1 hfind
    rw [List.getElem?_eq_getElem hlt, Option.some.injEq] at hi
    rw [hi] at hname
    split at hid
    · rename_i hfits
      have hname' : p.name = peripheral := by
        rw [← hoffers.name]
        simpa using hname
      refine ⟨?_, n, p, m, f, hp, hname', hlatest, hfits.2, (Option.some.inj hid).symm⟩
      -- a registry that forgot everything resolves nothing
      cases withdrawn with
      | false => rfl
      | true => exact absurd hlatest.lt (Nat.not_lt.2 hsince)
    · cases hid
  · rintro ⟨rfl, n, p, m, f, hp, hname, hlatest, hm, rfl⟩
    obtain ⟨i, hi, hoffers⟩ := h.exists_installed hp
    obtain ⟨hlt, hget⟩ := List.getElem?_eq_some_iff.1 hi
    refine ⟨n, List.findIdx?_eq_some_iff_getElem.2 ⟨hlt, ?_, fun j hj => ?_⟩, i, hi, m, ?_, ?_⟩
    · simp [hget, hoffers.name, hname]
    · -- nobody before has the name
      obtain ⟨q, hq, hoffers'⟩ :=
        h.exists_peripheral (List.getElem?_eq_getElem (Nat.lt_trans hj hlt))
      have hne : q.name ≠ p.name := fun he => absurd (h.place_unique hq hp he) (Nat.ne_of_lt hj)
      simpa [hoffers'.name, ← hname] using hne
    · exact (hoffers.registry.name function m).2 ⟨Nat.zero_le _, f, hlatest⟩
    · rw [if_pos ⟨h.lt hp, hm⟩]

/-- **Which function an id reaches.** -/
theorem function?_make (h : fw.Holds false ps) (hp : ps[n]? = some p) (hm : m < 65536)
    {name : String} {f : HostFunction} (hf : p.functions[m]? = some (name, f)) :
    fw.function? (.make (UInt16.ofNat n) (UInt16.ofNat m)) = some f := by
  obtain ⟨i, hi, hoffers⟩ := h.exists_installed hp
  have hn : (UInt16.ofNat n).toNat = n := UInt16.toNat_ofNat_of_lt' (h.lt hp)
  have hm' : (UInt16.ofNat m).toNat = m := UInt16.toNat_ofNat_of_lt' hm
  simp only [function?, FunctionId.peripheral_make, FunctionId.function_make, hn, hm', hi,
    Option.bind_eq_bind, Option.bind_some]
  rw [hoffers.registry.function m, hf]
  rfl

theorem function?_withdrawn (h : fw.Holds true ps) (id : FunctionId) : fw.function? id = none := by
  simp only [function?, Option.bind_eq_bind, Option.bind_eq_none_iff]
  intro i hi
  obtain ⟨p, -, hoffers⟩ := h.exists_peripheral hi
  rw [hoffers.registry.function, if_pos rfl]
  by_cases hle : p.functions.length ≤ id.function
  · rw [if_pos hle, List.getElem?_eq_none hle]
    rfl
  · rw [if_neg hle]

end Holds

/-! ## Installing in order -/

/-- In a sequence of installations, the one of `p` succeeds and gives it the number `n`. -/
def Placed (ps : List Peripheral) (n : Nat) (p : Peripheral) : Prop :=
  ∃ before after fw, ps = before ++ p :: after ∧
    (ofPeripherals before).install p = .ok (n, fw)

theorem ofPeripherals_concat (ps : List Peripheral) (p : Peripheral) :
    ofPeripherals (ps ++ [p]) =
      match (ofPeripherals ps).install p with
      | .ok (_, fw) => fw
      | .error _ => ofPeripherals ps := by
  unfold ofPeripherals
  rw [List.foldl_append]
  rfl

theorem placed_concat {ps : List Peripheral} {p q : Peripheral} {n : Nat} :
    Placed (ps ++ [p]) n q ↔
      Placed ps n q ∨ q = p ∧ ∃ fw, (ofPeripherals ps).install p = .ok (n, fw) := by
  constructor
  · rintro ⟨before, after, fw, hps, hinstall⟩
    rcases List.eq_nil_or_concat after with rfl | ⟨after, last, rfl⟩
    · obtain ⟨rfl, hlast⟩ := List.append_inj' hps rfl
      obtain rfl := List.cons.inj hlast |>.1
      exact .inr ⟨rfl, fw, hinstall⟩
    · rw [List.concat_eq_append, ← List.cons_append, ← List.append_assoc] at hps
      obtain ⟨rfl, -⟩ := List.append_inj' hps rfl
      exact .inl ⟨before, after, fw, rfl, hinstall⟩
  · rintro (⟨before, after, fw, rfl, hinstall⟩ | ⟨rfl, fw, hinstall⟩)
    · exact ⟨before, after ++ [p], fw, by simp, hinstall⟩
    · exact ⟨ps, [], fw, rfl, hinstall⟩

/-- **The firmware holds what was installed**, in the places that installing gave. -/
theorem exists_holds (ps : List Peripheral) :
    ∃ placed, (ofPeripherals ps).Holds false placed ∧
      ∀ n p, placed[n]? = some p ↔ Placed ps n p := by
  obtain ⟨rev, rfl⟩ : ∃ rev : List Peripheral, ps = rev.reverse := ⟨ps.reverse, by simp⟩
  -- the sequence grows at its end
  induction rev with
  | nil =>
    refine ⟨[], .empty, fun n p => ⟨by simp, ?_⟩⟩
    rintro ⟨before, after, fw, hps, -⟩
    simp at hps
  | cons p rest ih =>
    obtain ⟨placed, hholds, hplaced⟩ := ih
    rw [List.reverse_cons, ofPeripherals_concat]
    simp only [placed_concat]
    cases hinstall : (ofPeripherals rest.reverse).install p with
    | error e =>
      refine ⟨placed, hholds, fun n q => ?_⟩
      rw [hplaced]
      simp
    | ok x =>
      obtain ⟨m, fw⟩ := x
      obtain ⟨rfl, hnew⟩ := hholds.install hinstall
      refine ⟨placed ++ [p], hnew, fun n q => ?_⟩
      rw [← hplaced]
      simp only [Except.ok.injEq, Prod.mk.injEq]
      rcases Nat.lt_trichotomy n placed.length with hlt | rfl | hgt
      · simp only [List.getElem?_append_left hlt]
        constructor
        · exact .inl
        · rintro (hq | ⟨-, fw', rfl, -⟩)
          · exact hq
          · exact absurd hlt (Nat.lt_irrefl _)
      · simp [eq_comm]
      · rw [List.getElem?_eq_none (by simp; omega), List.getElem?_eq_none (by omega)]
        constructor
        · rintro ⟨⟩
        · rintro (hq | ⟨-, fw', rfl, -⟩)
          · exact hq
          · exact absurd hgt (Nat.lt_irrefl _)

/-- A firmware after a sequence of installations, withdrawn in the end or not. -/
def afterInstalling (ps : List Peripheral) (withdrawn : Bool) : Firmware :=
  if withdrawn then (ofPeripherals ps).dispose else ofPeripherals ps

/-- Linking by name and calling by number, after a sequence of installations. -/
structure Linked (ps : List Peripheral) (withdrawn : Bool) : Prop where
  /-- A peripheral with a new name is installed while there are numbers for it and its functions. -/
  installed : ∀ p, (∀ n q, Placed ps n q → q.name ≠ p.name) →
    (ofPeripherals ps).installed.length < maxPeripherals →
      p.functions.length ≤ Registry.maxFunctions →
        ∃ fw, (ofPeripherals ps).install p = .ok ((ofPeripherals ps).installed.length, fw)
  /-- A name can be used once. -/
  used : ∀ n q p, Placed ps n q → q.name = p.name →
    (ofPeripherals ps).install p = .error (.error (.misuse (.peripheralInstalled p.name))) ∧
      ofPeripherals (ps ++ [p]) = ofPeripherals ps
  /-- An id reaches the function that its peripheral registered last under the name. -/
  dispatched : ∀ peripheral function id,
    (afterInstalling ps withdrawn).resolve? peripheral function = some id →
      ∀ n p, Placed ps n p → p.name = peripheral →
        ∃ m f, Registry.Latest p.functions function m f ∧
          (afterInstalling ps withdrawn).function? id = some f ∧
          (afterInstalling ps withdrawn).function? ⟨id.raw⟩ = some f
  /-- Names are resolved if both numbers fit their half of the id. -/
  resolved : ∀ peripheral function,
    (∃ id, (afterInstalling ps withdrawn).resolve? peripheral function = some id) ↔
      withdrawn = false ∧ ∃ n p m f, Placed ps n p ∧ p.name = peripheral ∧
        Registry.Latest p.functions function m f ∧ n < 65536 ∧ m < 65536
  /-- Different functions have different ids. -/
  distinct : ∀ peripheral function peripheral' function' id,
    (afterInstalling ps withdrawn).resolve? peripheral function = some id →
      (afterInstalling ps withdrawn).resolve? peripheral' function' = some id →
        peripheral = peripheral' ∧ function = function'
  /-- Once all functions are withdrawn, no id reaches any. -/
  gone : withdrawn = true → ∀ id, (afterInstalling ps withdrawn).function? id = none

theorem Holds.install_used {fw : Firmware} {ps : List Peripheral} (h : fw.Holds false ps) {n : Nat}
    {p q : Peripheral} (hq : ps[n]? = some q) (hname : q.name = p.name) :
    fw.install p = .error (.error (.misuse (.peripheralInstalled p.name))) := by
  rw [Firmware.install, if_pos (h.any_name hq hname)]

/-- Two ids that are the same were made from the same numbers. -/
theorem make_ofNat_inj {n n' m m' : Nat} (hn : n < 65536) (hn' : n' < 65536) (hm : m < 65536)
    (hm' : m' < 65536)
    (h : FunctionId.make (.ofNat n) (.ofNat m) = .make (.ofNat n') (.ofNat m')) :
    n = n' ∧ m = m' := by
  have hperipheral := congrArg FunctionId.peripheral h
  have hfunction := congrArg FunctionId.function h
  simp only [FunctionId.peripheral_make, FunctionId.function_make] at hperipheral hfunction
  rw [UInt16.toNat_ofNat_of_lt' hn, UInt16.toNat_ofNat_of_lt' hn'] at hperipheral
  rw [UInt16.toNat_ofNat_of_lt' hm, UInt16.toNat_ofNat_of_lt' hm'] at hfunction
  exact ⟨hperipheral, hfunction⟩

theorem linked (ps : List Peripheral) (withdrawn : Bool) : Linked ps withdrawn := by
  obtain ⟨placed, hholds, hplaced⟩ := exists_holds ps
  have hafter : (afterInstalling ps withdrawn).Holds withdrawn placed := by
    cases withdrawn with
    | false => exact hholds
    | true => exact hholds.dispose
  constructor
  · intro p hnew hroom hfew
    rw [hholds.length] at hroom ⊢
    exact hholds.install_new (fun n q hq => hnew n q ((hplaced n q).1 hq)) hroom hfew
  · intro n q p hq hname
    have hinstall := hholds.install_used ((hplaced n q).2 hq) hname
    refine ⟨hinstall, ?_⟩
    rw [ofPeripherals_concat, hinstall]
  · intro peripheral function id hid n p hp hname
    obtain ⟨rfl, n', p', m, f, hp', hname', hlatest, hm, rfl⟩ := hafter.resolve?_eq_some.1 hid
    have hp := (hplaced n p).2 hp
    obtain rfl := hafter.place_unique hp hp' (hname.trans hname'.symm)
    obtain rfl := Option.some.inj (hp.symm.trans hp')
    have hfunction := hafter.function?_make hp hm hlatest.entry
    exact ⟨m, f, hlatest, hfunction, hfunction⟩
  · intro peripheral function
    constructor
    · rintro ⟨id, hid⟩
      obtain ⟨hwithdrawn, n, p, m, f, hp, hname, hlatest, hm, -⟩ := hafter.resolve?_eq_some.1 hid
      exact ⟨hwithdrawn, n, p, m, f, (hplaced n p).1 hp, hname, hlatest, hafter.lt hp, hm⟩
    · rintro ⟨hwithdrawn, n, p, m, f, hp, hname, hlatest, -, hm⟩
      exact ⟨_, hafter.resolve?_eq_some.2
        ⟨hwithdrawn, n, p, m, f, (hplaced n p).2 hp, hname, hlatest, hm, rfl⟩⟩
  · intro peripheral function peripheral' function' id hid hid'
    obtain ⟨-, n, p, m, f, hp, rfl, hlatest, hm, rfl⟩ := hafter.resolve?_eq_some.1 hid
    obtain ⟨-, n', p', m', f', hp', rfl, hlatest', hm', hsame⟩ := hafter.resolve?_eq_some.1 hid'
    obtain ⟨rfl, rfl⟩ := make_ofNat_inj (hafter.lt hp) (hafter.lt hp') hm hm' hsame
    obtain rfl := Option.some.inj (hp.symm.trans hp')
    have hentry := hlatest.entry.symm.trans hlatest'.entry
    simp only [Option.some.injEq, Prod.mk.injEq] at hentry
    exact ⟨rfl, hentry.1⟩
  · rintro rfl id
    exact hafter.function?_withdrawn id

end Firmware

/-- **Linking agrees with dispatch.** After any sequence of installations, the functions withdrawn
in the end or not, a name is resolved exactly while its function is there and both of its numbers
fit the id; the id reaches the function that the peripheral of that name registered last under that
name, and no other name has it. And whatever is registered in a registry and cleared, no id is
handed out twice, and none from before a clearing means anything after it. -/
theorem linking_agrees_with_dispatch (ps : List Peripheral) (withdrawn : Bool)
    (actions : List Registry.Action) :
    Firmware.Linked ps withdrawn ∧ Registry.Numbered actions :=
  ⟨Firmware.linked ps withdrawn, Registry.numbered actions⟩

end CellMachine
