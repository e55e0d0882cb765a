import Mathlib
import ScatteringData.Proofs.Record.Built
import ScatteringData.Proofs.TemperatureMap.LastWrite
import ScatteringData.Proofs.Store.Copying

/-!
# A map with names as a family of maps

A map with names is as good as one map with temperatures for each name: setting a record touches the
part of its name only, a copy has the copies of the parts, and below a name the map answers what the
part does.
-/

namespace ScatteringData

/-! ## Names -/

theorem Value.key?_of_chars? {v : Value} {n : String} (h : v.chars? = some n) :
    v.key? = some (.text n) := by
  cases v with
  | text s mark => cases h; rfl
  | fileType t => cases h; rfl
  | _ => cases h

theorem Value.plain_of_chars? {v : Value} {n : String} (h : v.chars? = some n) : v.plain = n := by
  cases v with
  | text s mark => cases h; rfl
  | fileType t => cases h; rfl
  | _ => cases h

theorem Label.key_of_chars? {l : Label} {n : String} (h : l.shown.chars? = some n) :
    l.key = .text n :=
  Option.some.inj (l.key_shown.symm.trans (Value.key?_of_chars? h))

theorem eraseDups_concat {α : Type} [DecidableEq α] (xs : List α) (x : α) :
    (xs ++ [x]).eraseDups = if x ∈ xs.eraseDups then xs.eraseDups else xs.eraseDups ++ [x] := by
  rw [List.eraseDups_append]
  by_cases h : x ∈ xs
  · rw [if_pos (List.mem_eraseDups.mpr h), List.removeAll, List.filter_singleton]
    simp [h]
  · rw [if_neg fun hx => h (List.mem_eraseDups.mp hx), List.removeAll, List.filter_singleton]
    simp [h, List.eraseDups_cons]

def Record.givenName (r : Record) : Option String := r.name.bind Value.chars?

section
variable (records : RecordRef → Record)

def namesOf (rs : List RecordRef) : List String := rs.filterMap fun r => (records r).givenName

def recordsNamed (n : String) (rs : List RecordRef) : List RecordRef :=
  rs.filter fun r => (records r).givenName = some n

def NamedMap.setAll (m : NamedMap) (rs : List RecordRef) : NamedMap :=
  rs.foldl (fun m r => (m.set r (records r)).1) m

end

/-! ## Parts -/

/-- The map consists of one part for each of the names in use, in the order of their first use. The
part of any other name is empty. -/
structure NamedMap.Splits (m : NamedMap) (category : String) (uses : List String)
    (part : String → TemperatureMap) : Prop where
  category_eq : m.category = category
  entries : m.maps.entries.map (fun e => (e.1.shown.chars?, e.2)) =
    uses.eraseDups.map fun n => (some n, part n)
  absent : ∀ n, n ∉ uses → part n = TemperatureMap.empty s!"{category} ({n})"

section
variable {α : Type} {part : String → α} {l : Label} {n : String} {names : List String}
  {es : List (Label × α)}

theorem Table.putIn_parts (hl : l.shown.chars? = some n) (a : α) (hnames : names.Nodup)
    (h : es.map (fun e => (e.1.shown.chars?, e.2)) = names.map fun k => (some k, part k)) :
    (putIn l a es).map (fun e => (e.1.shown.chars?, e.2)) =
      (if n ∈ names then names else names ++ [n]).map fun k => (some k, Function.update part n a k) := by
  induction names generalizing es with
  | nil =>
    cases List.map_eq_nil_iff.mp h
    simp [putIn, hl]
  | cons k names ih =>
    obtain ⟨hk, hnames⟩ := List.nodup_cons.mp hnames
    obtain ⟨e, es, rfl, he, hes⟩ := List.map_eq_cons_iff.mp h
    rw [Prod.mk.injEq] at he
    have hkey : e.1.key = l.key ↔ k = n := by
      rw [Label.key_of_chars? he.1, Label.key_of_chars? hl, Key.text.injEq]
    unfold putIn
    by_cases heq : k = n
    · subst heq
      have hrest : names.map (fun j => (some j, Function.update part k a j)) =
          names.map fun j => (some j, part j) := by
        refine List.map_congr_left fun j hj => ?_
        rw [Function.update_of_ne fun hjk : j = k => hk (hjk ▸ hj)]
      rw [if_pos (hkey.mpr rfl), if_pos (List.mem_cons_self ..), List.map_cons, List.map_cons, hrest,
        hes, he.1, Function.update_self]
    · rw [if_neg (mt hkey.mp heq), List.map_cons, ih hnames hes]
      have hmem : n ∈ k :: names ↔ n ∈ names := by
        rw [List.mem_cons, or_iff_right (Ne.symm heq)]
      simp only [hmem]
      split <;> simp [he.1, he.2, Function.update_of_ne heq]

theorem Table.get?_parts {t : Table α}
    (h : t.entries.map (fun e => (e.1.shown.chars?, e.2)) = names.map fun k => (some k, part k))
    (n : String) : t.get? (.text n) = if n ∈ names then some (part n) else none := by
  obtain ⟨es⟩ := t
  induction names generalizing es with
  | nil =>
    cases List.map_eq_nil_iff.mp h
    rfl
  | cons k names ih =>
    obtain ⟨e, es, rfl, he, hes⟩ := List.map_eq_cons_iff.mp h
    rw [Prod.mk.injEq] at he
    rw [get?_cons, Label.key_of_chars? he.1, ih es hes]
    by_cases heq : k = n
    · subst heq
      simp [he.2]
    · simp [heq, Ne.symm heq]

end

namespace NamedMap

variable {m : NamedMap} {category : String} {uses : List String} {part : String → TemperatureMap}
  {ref : RecordRef} {r : Record} {n : String}

theorem Splits.empty (category : String) :
    (empty category).Splits category [] fun n => TemperatureMap.empty s!"{category} ({n})" :=
  ⟨rfl, rfl, fun _ _ => rfl⟩

theorem Splits.get? (h : m.Splits category uses part) (n : String) :
    m.maps.get? (.text n) = if n ∈ uses then some (part n) else none := by
  rw [Table.get?_parts h.entries]
  simp only [List.mem_eraseDups]

theorem Splits.set (h : m.Splits category uses part) (hr : r.givenName = some n) (ref : RecordRef) :
    (m.set ref r).1.Splits category (uses ++ [n])
      (Function.update part n ((part n).set ref r).1) ∧ (m.set ref r).2 = ((part n).set ref r).2 := by
  obtain ⟨name, hname, hchars⟩ := Option.bind_eq_some_iff.mp hr
  have hkey := Value.key?_of_chars? hchars
  have hinner : m.inner ⟨name, .text n, hkey⟩ = .ok (part n) := by
    unfold inner
    rw [h.get?]
    by_cases hn : n ∈ uses
    · rw [if_pos hn]
    · rw [if_neg hn, subcategory, Value.written_of_chars? hchars, h.absent n hn, h.category_eq,
        Value.plain_of_chars? hchars]
      rfl
  have hset : m.set ref r =
      ({ m with maps := m.maps.put ⟨name, .text n, hkey⟩ ((part n).set ref r).1 },
        ((part n).set ref r).2) := by
    unfold NamedMap.set
    simp only [hname, Label.ofValue_eq hkey, hinner]
  rw [hset]
  refine ⟨⟨h.category_eq, ?_, fun k hk => ?_⟩, rfl⟩
  · rw [eraseDups_concat]
    exact Table.putIn_parts hchars _ (nodup_eraseDups uses) h.entries
  · have hkn : k ≠ n := fun heq => 
      hk (List.mem_append_right _ (List.mem_singleton.mpr heq))
    rw [Function.update_of_ne hkn, h.absent k fun hmem => hk (List.mem_append_left _ hmem)]

theorem Splits.setAll {records : RecordRef → Record} (h : m.Splits category uses part)
    {rs : List RecordRef} (hrs : ∀ r ∈ rs, (records r).givenName.isSome) :
    (m.setAll records rs).Splits category (uses ++ namesOf records rs)
      fun n => (part n).setAll records (recordsNamed records n rs) := by
  induction rs generalizing m uses part with
  | nil =>
    rw [namesOf, List.filterMap_nil, List.append_nil]
    exact h
  | cons r rs ih =>
    obtain ⟨n, hn⟩ := Option.isSome_iff_exists.mp (hrs r (List.mem_cons_self ..))
    have hrest := ih (h.set hn r).1 fun q hq => hrs q (List.mem_cons_of_mem _ hq)
    have huses : uses ++ namesOf records (r :: rs) = (uses ++ [n]) ++ namesOf records rs := by
      simp only [namesOf, List.filterMap_cons, hn, List.append_assoc, List.singleton_append]
    have hpart : (fun k => (part k).setAll records (recordsNamed records k (r :: rs))) =
        fun k => (Function.update part n ((part n).set r (records r)).1 k).setAll records
          (recordsNamed records k rs) := by
      funext k
      unfold recordsNamed
      by_cases hk : k = n
      · subst hk
        rw [List.filter_cons_of_pos (by simpa using hn), Function.update_self]
        rfl
      · rw [List.filter_cons_of_neg (by simpa [hn] using Ne.symm hk), Function.update_of_ne hk]
    rw [huses, hpart]
    exact hrest

end NamedMap

/-! ## Copies -/

section
variable {σ α β : Type} (f : σ → α → σ × β) (part : String → α)

def stateAt : σ → List String → String → σ
  | s, [], _ => s
  | s, k :: names, n => if k = n then s else stateAt (f s (part k)).1 names n

theorem Table.rebuildIn_parts {names : List String} (hnames : names.Nodup) {es : List (Label × α)}
    (h : es.map (fun e => (e.1.shown.chars?, e.2)) = names.map fun k => (some k, part k)) (s : σ) :
    (rebuildIn f s es).2.map (fun e => (e.1.shown.chars?, e.2)) =
      names.map fun k => (some k, (f (stateAt f part s names k) (part k)).2) := by
  induction names generalizing es s with
  | nil =>
    cases List.map_eq_nil_iff.mp h
    rfl
  | cons k names ih =>
    obtain ⟨hk, hnames⟩ := List.nodup_cons.mp hnames
    obtain ⟨e, es, rfl, he, hes⟩ := List.map_eq_cons_iff.mp h
    rw [Prod.mk.injEq] at he
    have hrest : names.map (fun j => (some j, (f (stateAt f part s (k :: names) j) (part j)).2)) =
        names.map fun j => (some j, (f (stateAt f part (f s (part k)).1 names j) (part j)).2) := by
      refine List.map_congr_left fun j hj => ?_
      rw [stateAt, if_neg fun hkj : k = j => hk (hkj ▸ hj)]
    rw [List.map_cons, hrest, ← ih hnames hes, stateAt, if_pos rfl, ← he.2, ← he.1]
    rfl

end

namespace NamedMap

variable {m : NamedMap} {category : String} {uses : List String} {part : String → TemperatureMap}

theorem Splits.copy (h : m.Splits category uses part) {σ : Type} (f : σ → RecordRef → σ × RecordRef)
    (s : σ) : (m.rebuild f s).2.Splits category uses fun n => ((part n).rebuild f
      (stateAt (TemperatureMap.rebuild f) part s uses.eraseDups n)).2 := by
  refine ⟨h.category_eq, ?_, fun n hn => ?_⟩
  · exact Table.rebuildIn_parts (TemperatureMap.rebuild f) part (nodup_eraseDups uses) h.entries s
  · rw [h.absent n hn]
    rfl

/-! ## Answers -/

/-- What a map answers under a name that is not in use: nothing is listed or available, and every
look-up fails. -/
structure Lacks (m : NamedMap) (category : String) (name : Value) : Prop where
  fileTypes : (RecordMap.named m).ask .fileTypes [name] = Outcome.ok (.keys [])
  versions : ∀ t, (RecordMap.named m).ask .versions [name, t] = Outcome.ok (.keys [])
  energies : ∀ t v, (RecordMap.named m).ask .energies [name, t, v] = Outcome.ok (.energies [])
  temperatures : ∀ t v,
    (RecordMap.named m).ask .temperatures [name, t, v] = Outcome.ok (.temperatures [])
  available : ∀ args : List Value, args.length ≤ 3 →
    (RecordMap.named m).ask .available (name :: args) = Outcome.ok (.truth false)
  get : ∀ args : List Value, args.length = 3 ∨ args.length = 4 →
    (RecordMap.named m).ask .get (name :: args) = .fail (.request (.unknownName category name))
  recommendedVersion : ∀ t, (RecordMap.named m).ask .recommendedVersion [name, t] =
    .fail (.request (.unknownName category name))

/-- The map answers as its parts do, each under its own name, and lists them in order. -/
structure AnswersAs (m : NamedMap) (category : String) (uses : List String)
    (part : String → TemperatureMap) : Prop where
  used : ∀ (name : Value) (n : String), name.chars? = some n → n ∈ uses → ∀ q ≠ .names, ∀ args,
    (RecordMap.named m).ask q (name :: args) = (RecordMap.temperature (part n)).ask q args
  unused : ∀ (name : Value) (n : String), name.chars? = some n → n ∉ uses → m.Lacks category name
  names : ∃ vs, (RecordMap.named m).ask .names [] = Outcome.ok (.keys vs) ∧
    vs.map Value.chars? = uses.eraseDups.map some
  size : (RecordMap.named m).size =
    (uses.eraseDups.map fun n => (RecordMap.temperature (part n)).size).sum
  records : (RecordMap.named m).records = uses.eraseDups.flatMap fun n => (part n).records

theorem ask_found {name : Value} {inner : TemperatureMap} (hfind : m.maps.find name = .ok (some inner))
    (hnull : name.isNull = false) {q : Query} (hq : q ≠ .names) (args : List Value) :
    m.ask q (name :: args) = inner.ask q args := by
  have hname : argument (name :: args) 0 .null = name := rfl
  have hunder : m.under name = .ok inner := by
    unfold under
    rw [hfind]
    rfl
  unfold NamedMap.ask TemperatureMap.ask
  cases q with
  | names => exact absurd rfl hq
  | available =>
    unfold NamedMap.available
    simp only [hname, hnull, hfind]
    rfl
  | get =>
    unfold NamedMap.get
    simp only [hname, hunder]
    rfl
  | fileTypes =>
    unfold NamedMap.fileTypes
    simp only [hname, hfind]
    rfl
  | versions =>
    unfold NamedMap.versions
    simp only [hname, hfind]
    rfl
  | recommendedVersion =>
    unfold NamedMap.recommendedVersion
    simp only [hname, hunder]
    rfl
  | energies =>
    unfold NamedMap.energies
    simp only [hname, hfind]
    rfl
  | temperatures =>
    unfold NamedMap.temperatures
    simp only [hname, hfind]
    rfl

theorem exists_arity {q : Query} (hq : q ≠ .names) : ∃ least most least' most',
    q.arity? .named = some (least, most) ∧ q.arity? .temperature = some (least', most') ∧
      ∀ n, (n + 1 < least ∨ most < n + 1) ↔ (n < least' ∨ most' < n) := by
  cases q with
  | names => exact absurd rfl hq
  | _ => exact ⟨_, _, _, _, rfl, rfl, fun n => by omega⟩

theorem ask_of_find {name : Value} {inner : TemperatureMap} (hfind : m.maps.find name = .ok (some inner))
    (hnull : name.isNull = false) {q : Query} (hq : q ≠ .names) (args : List Value) :
    (RecordMap.named m).ask q (name :: args) = (RecordMap.temperature inner).ask q args := by
  obtain ⟨least, most, least', most', hnamed, htemperature, hiff⟩ := exists_arity hq
  unfold RecordMap.ask
  simp only [RecordMap.shape, hnamed, htemperature, List.length_cons, hiff, ask_found hfind hnull hq]

theorem lacks_of_find {name : Value} {n : String} (hname : name.chars? = some n)
    (hfind : m.maps.find name = .ok none) (hnull : name.isNull = false) :
    m.Lacks m.category name := by
  have hunder : m.under name = .error (.request (.unknownName m.category name)) := by
    unfold under
    rw [hfind]
    refine congrArg Except.error (Fault.raised_eq_self fun v hv => ?_)
    cases List.mem_singleton.mp hv
    exact Value.isUnwritable_of_chars? hname
  have havailable : ∀ fileType version temperature,
      m.available name fileType version temperature = .ok false := by
    intro fileType version temperature
    unfold NamedMap.available
    rw [hnull, hfind]
    rfl
  have hget : ∀ fileType version temperature exact, m.get name fileType version temperature exact =
      .fail (.request (.unknownName m.category name)) := by
    intro fileType version temperature exact
    unfold NamedMap.get
    rw [hunder]
    rfl
  refine ⟨?_, fun t => ?_, fun t v => ?_, fun t v => ?_, fun args hargs => ?_, fun args hargs => ?_,
    fun t => ?_⟩
  · change answered .keys (m.fileTypes name) = _
    unfold NamedMap.fileTypes
    rw [hfind]
    rfl
  · change answered .keys (m.versions name t) = _
    unfold NamedMap.versions
    rw [hfind]
    rfl
  · change answered .energies (m.energies name t v) = _
    unfold NamedMap.energies
    rw [hfind]
    rfl
  · change answered .temperatures (m.temperatures name t v) = _
    unfold NamedMap.temperatures
    rw [hfind]
    rfl
  · have hcount : ¬ ((name :: args).length < 0 ∨ 4 < (name :: args).length) := by
      rw [List.length_cons]
      omega
    change (if _ then _ else m.ask .available (name :: args)) = _
    rw [if_neg hcount]
    exact congrArg (answered Answer.truth) (havailable _ _ _)
  · have hcount : ¬ ((name :: args).length < 4 ∨ 5 < (name :: args).length) := by
      rw [List.length_cons]
      omega
    change (if _ then _ else m.ask .get (name :: args)) = _
    rw [if_neg hcount]
    exact congrArg (Outcome.map Answer.record) (hget _ _ _ _)
  · change answered .key (m.recommendedVersion name t) = _
    unfold NamedMap.recommendedVersion
    rw [hunder]
    rfl

theorem Splits.answers (h : m.Splits category uses part) : m.AnswersAs category uses part := by
  have hfind : ∀ {name : Value} {n : String}, name.chars? = some n →
      m.maps.find name = .ok (if n ∈ uses then some (part n) else none) ∧ name.isNull = false := by
    intro name n hname
    have hkey := Value.key?_of_chars? hname
    exact ⟨by rw [Table.find_eq _ hkey, h.get?], Value.isNull_eq_false hkey (by simp)⟩
  have hcontents : m.maps.contents = uses.eraseDups.map part := by
    have hparts := congrArg (List.map Prod.snd) h.entries
    rw [List.map_map, List.map_map] at hparts
    exact hparts
  have hrecords : m.records = uses.eraseDups.flatMap fun n => (part n).records := by
    rw [NamedMap.records, hcontents, List.flatMap_map]
  refine ⟨fun name n hname hn q hq args => ?_, fun name n hname hn => ?_, ⟨_, rfl, ?_⟩, ?_, hrecords⟩
  · obtain ⟨hfind, hnull⟩ := hfind hname
    rw [if_pos hn] at hfind
    exact ask_of_find hfind hnull hq args
  · obtain ⟨hfind, hnull⟩ := hfind hname
    rw [if_neg hn] at hfind
    exact h.category_eq ▸ lacks_of_find hname hfind hnull
  · have hparts := congrArg (List.map Prod.fst) h.entries
    rw [List.map_map, List.map_map] at hparts
    rw [names, Table.labels, List.map_map]
    exact hparts
  · change m.records.length = _
    rw [hrecords, List.length_flatMap]
    rfl

end NamedMap

/-! ## Sequences of records -/

section
variable (category : String) (records : RecordRef → Record) (rs : List RecordRef)

def TemperatureMap.ofName (n : String) : TemperatureMap :=
  (empty s!"{category} ({n})").setAll records (recordsNamed records n rs)

def TemperatureMap.copyOfName (s : Store) (deep : Bool) (n : String) : TemperatureMap :=
  if deep then
    ((ofName category records rs n).rebuild Store.cloneRecord
      (stateAt (rebuild Store.cloneRecord) (ofName category records rs) s
        (namesOf records rs).eraseDups n)).2
  else ofName category records rs n

end

theorem Store.map_copyMap (s : Store) (m : MapRef) (deep : Bool) :
    (s.copyMap m deep).1.map (s.copyMap m deep).2 = (passMap deep s (s.map m)).2 := by
  unfold copyMap addMap Store.map mapObject
  simp only [getD_push, if_true]

/-- A map that received records with names answers as the maps with temperatures that received the
records of one name each; so does every copy of it, also when it receives more records. -/
theorem NamedMap.setAll_answers (category : String) {records : RecordRef → Record} {rs : List RecordRef}
    (hrs : ∀ r ∈ rs, (records r).givenName.isSome) :
    ((NamedMap.empty category).setAll records rs).AnswersAs category (namesOf records rs)
        (TemperatureMap.ofName category records rs) ∧
      ∀ (s : Store) (m : MapRef), s.map m = .named ((NamedMap.empty category).setAll records rs) →
        ∀ deep : Bool, ∃ copy, (s.copyMap m deep).1.map (s.copyMap m deep).2 = .named copy ∧
          ∀ (records' : RecordRef → Record) (rs' : List RecordRef),
            (∀ r ∈ rs', (records' r).givenName.isSome) →
            (copy.setAll records' rs').AnswersAs category
              (namesOf records rs ++ namesOf records' rs') fun n =>
                (TemperatureMap.copyOfName category records rs s deep n).setAll records'
                  (recordsNamed records' n rs') := by
  have hsplits := (Splits.empty category).setAll hrs
  rw [List.nil_append] at hsplits
  refine ⟨hsplits.answers, fun s m hm deep => ?_⟩
  cases deep with
  | false =>
    refine ⟨_, ?_, fun records' rs' hrs' => (hsplits.setAll hrs').answers⟩
    rw [Store.map_copyMap, Store.passMap_shared, hm]
  | true =>
    refine ⟨_, ?_, fun records' rs' hrs' =>
      ((hsplits.copy Store.cloneRecord s).setAll hrs').answers⟩
    rw [Store.map_copyMap, Store.passMap_renewed, hm]
    rfl

def boundHydrogens (r : RecordRef) : Record :=
  .boundHydrogen (.text (if r.index = 0 then "H2O" else "ZrH") .shared)
    ⟨1.0, Double.isMagnitude_one⟩

def boundStore : Store :=
  (Store.empty.addMap ⟨.named ((NamedMap.empty "thermal nuclear").setAll boundHydrogens [⟨0⟩, ⟨1⟩]),
    .text "thermal nuclear" .shared⟩).1

theorem NamedMap.setAll_answers_bound :
    ((NamedMap.empty "thermal nuclear").setAll boundHydrogens [⟨0⟩, ⟨1⟩]).AnswersAs "thermal nuclear"
        ["H2O", "ZrH"] (TemperatureMap.ofName "thermal nuclear" boundHydrogens [⟨0⟩, ⟨1⟩]) ∧
      ∃ copy, (boundStore.copyMap ⟨0⟩ true).1.map (boundStore.copyMap ⟨0⟩ true).2 = .named copy ∧
        (copy.setAll boundHydrogens [⟨0⟩]).AnswersAs "thermal nuclear" ["H2O", "ZrH", "H2O"] fun n =>
          (TemperatureMap.copyOfName "thermal nuclear" boundHydrogens [⟨0⟩, ⟨1⟩] boundStore true n).setAll
            boundHydrogens (recordsNamed boundHydrogens n [⟨0⟩]) := by
  have hrs : ∀ (rs : List RecordRef), ∀ r ∈ rs, (boundHydrogens r).givenName.isSome :=
    fun rs r _ => rfl
  obtain ⟨hanswers, hcopies⟩ := NamedMap.setAll_answers "thermal nuclear" (hrs [⟨0⟩, ⟨1⟩])
  obtain ⟨copy, hcopy, hmore⟩ := hcopies boundStore ⟨0⟩ rfl true
  exact ⟨hanswers, copy, hcopy, hmore boundHydrogens [⟨0⟩] (hrs [⟨0⟩])⟩

end ScatteringData
