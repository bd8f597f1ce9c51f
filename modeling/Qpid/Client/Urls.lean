import Qpid.Client.Options

/-!
The reconnect url list. `merge` appends the new elements of a list in order of first occurrence
and never adds a duplicate, so `setOption` and `mergeUrls` keep the list free of duplicates and
keep its first entry, `reconnect-urls` in replace mode apart. The constructor puts its url in
front without looking for it among the urls its options merged.
-/

namespace Qpid.Client.Urls
open Options ConnectionImpl

section Merge

variable {value : String} {values list : List String}

theorem merge_of_mem (member : value ∈ list) : merge value list = list := if_pos member

theorem merge_of_not_mem (absent : value ∉ list) : merge value list = list ++ [value] :=
  if_neg absent

@[simp] theorem mergeAll_nil (list : List String) : mergeAll [] list = list := rfl

@[simp] theorem mergeAll_cons : mergeAll (value :: values) list = mergeAll values (merge value list) :=
  rfl

theorem mergeAll_append_singleton :
    mergeAll (values ++ [value]) list = merge value (mergeAll values list) := by
  simp [mergeAll]

/-- `list'` keeps `list` in front and adds no duplicate. -/
def Extends (list list' : List String) : Prop := list <+: list' ∧ (list.Nodup → list'.Nodup)

theorem Extends.refl (list : List String) : Extends list list := ⟨List.prefix_refl _, id⟩

theorem Extends.trans {l₁ l₂ l₃ : List String} (first : Extends l₁ l₂) (second : Extends l₂ l₃) :
    Extends l₁ l₃ :=
  ⟨first.1.trans second.1, fun nodup => second.2 (first.2 nodup)⟩

theorem extends_merge (value : String) (list : List String) : Extends list (merge value list) := by
  by_cases member : value ∈ list
  · rw [merge_of_mem member]; exact .refl _
  · rw [merge_of_not_mem member]
    exact ⟨List.prefix_append _ _, fun nodup => List.nodup_append.2 ⟨nodup, List.nodup_singleton _,
      List.disjoint_singleton.2 member⟩⟩

theorem extends_mergeAll (values list : List String) : Extends list (mergeAll values list) := by
  induction values generalizing list with
  | nil => exact .refl _
  | cons value values ih => exact (extends_merge value list).trans (ih _)

theorem extends_mergeVariants {V : Type} (conv : Conversions V) (vs : List V) (list : List String) :
    Extends list (mergeVariants conv vs list).1 := by
  induction vs generalizing list with
  | nil => exact .refl _
  | cons v vs ih =>
    simp only [mergeVariants]
    cases conv.asString v with
    | none => exact .refl _
    | some value => exact (extends_merge value list).trans (ih _)

theorem mem_merge_self (value : String) (list : List String) : value ∈ merge value list := by
  unfold merge; split <;> simp_all

theorem mem_mergeAll {v : String} (member : v ∈ values ∨ v ∈ list) : v ∈ mergeAll values list := by
  induction values generalizing list with
  | nil => simpa using member
  | cons value values ih =>
    rw [List.mem_cons] at member
    rcases member with (rfl | later) | old
    · exact ih (.inr (mem_merge_self _ _))
    · exact ih (.inl later)
    · exact ih (.inr ((extends_merge value list).1.subset old))

theorem mergeAll_of_subset (present : ∀ v ∈ values, v ∈ list) : mergeAll values list = list := by
  induction values with
  | nil => rfl
  | cons value values ih =>
    rw [mergeAll_cons, merge_of_mem (present value (List.mem_cons_self _ _))]
    exact ih fun v member => present v (List.mem_cons_of_mem _ member)

theorem mergeVariants_of_mapM {V : Type} (conv : Conversions V) {vs : List V}
    (converted : vs.mapM conv.asString = some values) (list : List String) :
    mergeVariants conv vs list = (mergeAll values list, none) := by
  induction vs generalizing values list with
  | nil =>
    simp only [List.mapM_nil, pure, Option.some.injEq] at converted
    subst converted
    rfl
  | cons v vs ih =>
    simp only [List.mapM_cons, bind, Option.bind_eq_some, pure, Option.some.injEq] at converted
    obtain ⟨value, first, rest, restEq, rfl⟩ := converted
    simp only [mergeVariants, first, mergeAll_cons]
    exact ih restEq _

/-- The merge as the spec words it: the old list, then each element of `values` that the old
list lacks, once, in order of first occurrence (`dedup` keeps the last copy of an element, so it
runs on the reversed list). -/
def mergeBySpec (values list : List String) : List String :=
  list ++ (values.filter (· ∉ list)).reverse.dedup.reverse

theorem mergeAll_eq_mergeBySpec (values list : List String) :
    mergeAll values list = mergeBySpec values list := by
  induction values using List.reverseRecOn with
  | nil => simp [mergeBySpec]
  | append_singleton values value ih =>
    rw [mergeAll_append_singleton, ih]
    by_cases old : value ∈ list
    · simp [mergeBySpec, merge_of_mem (List.mem_append_left _ old), old]
    · have filtered : value ∈ (values.filter fun x => !decide (x ∈ list)).reverse ↔ value ∈ values := by
        simp [old]
      by_cases seen : value ∈ values
      · rw [merge_of_mem (by simp [mergeBySpec, seen, old])]
        simp [mergeBySpec, old, List.dedup_cons_of_mem (filtered.2 seen)]
      · rw [merge_of_not_mem (by simp [mergeBySpec, seen, old])]
        simp [mergeBySpec, old, List.dedup_cons_of_not_mem (mt filtered.1 seen)]

end Merge

/-- `merge` appends the elements of `values` the list lacks, once each, in order of first
occurrence, for string lists and for Variant lists whose elements all convert; so it keeps the
old list in front, adds no duplicate, is idempotent, and changes nothing when every element is
already present. -/
theorem merge_appends_first_new {V : Type} (values list : List String) :
    mergeAll values list = mergeBySpec values list ∧
    (∀ (conv : Conversions V) (vs : List V), vs.mapM conv.asString = some values →
      mergeVariants conv vs list = (mergeAll values list, none)) ∧
    list <+: mergeAll values list ∧ (list.Nodup → (mergeAll values list).Nodup) ∧
    mergeAll values (mergeAll values list) = mergeAll values list ∧
    ((∀ v ∈ values, v ∈ list) → mergeAll values list = list) :=
  ⟨mergeAll_eq_mergeBySpec values list, fun conv _ converted => mergeVariants_of_mapM conv converted list,
    (extends_mergeAll values list).1, (extends_mergeAll values list).2,
    mergeAll_of_subset fun _ member => mem_mergeAll (.inl member), mergeAll_of_subset⟩

/-- Variants that hold strings, as far as the url options read them: `asString` returns the
string, and no string is a list. -/
def stringVariants : Conversions String :=
  ⟨fun _ => none, fun _ => none, fun _ => none, some, fun _ => none⟩

theorem merge_appends_first_new_applies :
    (["a", "b"] : List String).Nodup ∧ (mergeAll ["c", "a", "c"] ["a", "b"]).Nodup ∧
      (∀ v ∈ ["b"], v ∈ ["a", "b"]) ∧ mergeAll ["b"] ["a", "b"] = ["a", "b"] ∧
      (["x", "y"] : List String).mapM stringVariants.asString = some ["x", "y"] ∧
      mergeVariants stringVariants ["x", "y"] ["a"] = (mergeAll ["x", "y"] ["a"], none) :=
  ⟨by decide, (@merge_appends_first_new String _ _).2.2.2.1 (by decide), by decide,
    (@merge_appends_first_new String _ _).2.2.2.2.2 (by decide), rfl,
    (merge_appends_first_new ["x", "y"] ["a"]).2.1 stringVariants ["x", "y"] rfl⟩

theorem Extends.head_eq {l l' : List String} {u : String} (ext : Extends l l')
    (head : l.head? = some u) : l'.head? = some u := by
  obtain ⟨t, rfl⟩ := ext.1
  cases l with
  | nil => cases head
  | cons x xs => simpa using head

section Calls

variable {V : Type} (conv : Conversions V)

theorem assign_urls {α : Type} {c : ConnectionImpl} {converted : Option α} {set : α → ConnectionImpl}
    (kept : ∀ a, (set a).urls = c.urls) : (c.assign converted set).1.urls = c.urls := by
  cases converted <;> simp [assign, kept]

theorem apply_urls (c : ConnectionImpl) {option : OptionName} (other : option ≠ .reconnectUrls)
    (value : V) : (c.apply conv option value).1.urls = c.urls := by
  cases option <;> first | exact absurd rfl other | exact assign_urls fun _ => rfl

theorem setUrls_extends (c : ConnectionImpl) (value : V) :
    Extends (if c.replaceUrls then [] else c.urls) (c.setUrls conv value).1.urls := by
  unfold setUrls
  cases conv.asList value with
  | some values => exact extends_mergeVariants conv values _
  | none =>
    cases conv.asString value with
    | some url => exact extends_merge url _
    | none => exact .refl _

/-- A `setOption` call extends the url list, cleared first when it applies `reconnect-urls` in
replace mode, whether or not it throws. -/
theorem setOption_extends (c : ConnectionImpl) (name : String) (value : V) :
    Extends (if optionNamed name = some .reconnectUrls ∧ c.replaceUrls = true then [] else c.urls)
      (c.setOption conv name value).1.urls := by
  unfold setOption
  cases named : optionNamed name with
  | none => simpa using Extends.refl c.urls
  | some option =>
    by_cases urls : option = .reconnectUrls
    · subst urls
      simpa using setUrls_extends conv c value
    · simpa [urls, apply_urls conv c urls] using Extends.refl c.urls

/-- A call on a constructed connection that can change its url list. A `setOptions` call is its
`setOption` calls up to the first that throws. -/
inductive Call (V : Type) where
  | setOption (name : String) (value : V)
  | mergeUrls (more : List String)

/-- The object a call leaves, whether or not it threw. -/
def Call.run (c : ConnectionImpl) : Call V → ConnectionImpl
  | .setOption name value => (c.setOption conv name value).1
  | .mergeUrls more => c.mergeUrls more

/-- The call applies `reconnect-urls` in replace mode. -/
def Call.replaces (c : ConnectionImpl) : Call V → Bool
  | .setOption name _ => optionNamed name == some .reconnectUrls && c.replaceUrls
  | .mergeUrls _ => false

def runCalls : ConnectionImpl → List (Call V) → ConnectionImpl
  | c, [] => c
  | c, call :: rest => runCalls (call.run conv c) rest

/-- No call of the run applies `reconnect-urls` in replace mode. -/
def keepsFirst : ConnectionImpl → List (Call V) → Bool
  | _, [] => true
  | c, call :: rest => !call.replaces c && keepsFirst (call.run conv c) rest

theorem Call.run_extends (c : ConnectionImpl) (call : Call V) :
    Extends (if call.replaces c then [] else c.urls) (call.run conv c).urls := by
  cases call with
  | setOption name value => simpa [Call.replaces, Call.run] using setOption_extends conv c name value
  | mergeUrls more => exact extends_mergeAll more c.urls

theorem runCalls_nodup : ∀ (c : ConnectionImpl) (calls : List (Call V)), c.urls.Nodup →
    (runCalls conv c calls).urls.Nodup
  | _, [], nodup => nodup
  | c, call :: rest, nodup =>
    runCalls_nodup _ rest ((Call.run_extends conv c call).2 (by split <;> simp [nodup]))

theorem runCalls_head {u : String} : ∀ (c : ConnectionImpl) (calls : List (Call V)),
    c.urls.head? = some u → keepsFirst conv c calls = true → (runCalls conv c calls).urls.head? = some u
  | _, [], head, _ => head
  | c, call :: rest, head, keeps => by
    simp only [keepsFirst, Bool.and_eq_true, Bool.not_eq_true'] at keeps
    have grown := Call.run_extends conv c call
    rw [keeps.1] at grown
    exact runCalls_head _ rest (grown.head_eq head) keeps.2

theorem create_head {settings : Settings} {url : String} {options : List (String × V)}
    {c : ConnectionImpl} (created : create conv settings url options = .ok c) :
    c.urls.head? = some url := by
  unfold create at created
  split at created
  · cases created; rfl
  · cases created

/-- After the constructor, `setOption` and `mergeUrls` calls, thrown or not, keep the url list
free of duplicates when it starts so, and keep the constructor's url first while none applies
`reconnect-urls` in replace mode. -/
theorem calls_keep_urls {settings : Settings} {url : String} {options : List (String × V)}
    {c : ConnectionImpl} (created : create conv settings url options = .ok c) (calls : List (Call V)) :
    (c.urls.Nodup → (runCalls conv c calls).urls.Nodup) ∧
      (keepsFirst conv c calls = true → (runCalls conv c calls).urls.head? = some url) :=
  ⟨runCalls_nodup conv c calls, runCalls_head conv c calls (create_head conv created)⟩

end Calls

/-- Settings with empty texts, zero numbers and `tcpNoDelay` off. -/
def blankSettings : Settings := ⟨"", "", "", "", 0, 0, 0, false, "", 0, 0, 0, "", ""⟩

/-- The connection the constructor builds from url `amqp:tcp:a` and no options. -/
def sampleConnection : ConnectionImpl := { ConnectionImpl.initial blankSettings with urls := ["amqp:tcp:a"] }

def sampleCalls : List (Call String) :=
  [.setOption "reconnect-urls" "amqp:tcp:b", .mergeUrls ["amqp:tcp:a", "amqp:tcp:c"]]

theorem calls_keep_urls_applies :
    create stringVariants blankSettings "amqp:tcp:a" [] = .ok sampleConnection ∧
      sampleConnection.urls.Nodup ∧ keepsFirst stringVariants sampleConnection sampleCalls = true ∧
      (runCalls stringVariants sampleConnection sampleCalls).urls.Nodup ∧
      (runCalls stringVariants sampleConnection sampleCalls).urls.head? = some "amqp:tcp:a" := by
  have created : create stringVariants blankSettings "amqp:tcp:a" [] = .ok sampleConnection := rfl
  have nodup : sampleConnection.urls.Nodup := by decide
  have keeps : keepsFirst stringVariants sampleConnection sampleCalls = true := by decide
  exact ⟨created, nodup, keeps, (calls_keep_urls stringVariants created sampleCalls).1 nodup,
    (calls_keep_urls stringVariants created sampleCalls).2 keeps⟩

/-- With its url also among the reconnect-urls of its options, the constructor's url list holds
that url twice. -/
theorem create_repeats_url (settings : Settings) :
    (create stringVariants settings "amqp:tcp:a" [("reconnect-urls", "amqp:tcp:a")]).map
      ConnectionImpl.urls = .ok ["amqp:tcp:a", "amqp:tcp:a"] := rfl

end Qpid.Client.Urls
