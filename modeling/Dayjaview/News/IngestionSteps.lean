import Dayjaview.News.Ingestion

/-!
# Taking in one item

What raises is a value error while an address is normalised, so that a malformed one is
rejected. An item that passes the checks is stored at the end of the contents, or an
item that it repeats is there already.
-/

namespace Dayjaview.News

/-- All errors of a computation are value errors. -/
def RaisesValueErrors {α : Type} (x : Except Error α) : Prop :=
  ∀ e, x = .error e → isValueError e = true

namespace RaisesValueErrors

variable {α β : Type}

theorem ok (a : α) : RaisesValueErrors (.ok a) := fun _ h => by cases h

theorem error {e : Error} (h : isValueError e = true) :
    RaisesValueErrors (.error e : Except Error α) := by
  intro e' he
  cases he
  exact h

theorem bind {x : Except Error α} {f : α → Except Error β} (hx : RaisesValueErrors x)
    (hf : ∀ a, RaisesValueErrors (f a)) : RaisesValueErrors (x >>= f) := by
  intro e h
  rcases bind_eq_error.mp h with hfirst | ⟨a, -, hsecond⟩
  · exact hx e hfirst
  · exact hf a e hsecond

theorem mapM {f : α → Except Error β} (hf : ∀ a, RaisesValueErrors (f a)) (as : List α) :
    RaisesValueErrors (as.mapM f) := by
  induction as with
  | nil => exact ok []
  | cons a as ih =>
    rw [List.mapM_cons]
    exact (hf a).bind fun b => ih.bind fun bs => ok _

end RaisesValueErrors

open RaisesValueErrors (bind mapM)

theorem raisesValueErrors_requireUrl (p : Prop) [Decidable p] :
    RaisesValueErrors (requireUrl p) := by
  unfold requireUrl
  split
  · exact .ok ()
  · exact .error rfl

theorem raisesValueErrors_encodable (cs : List CodePoint) : RaisesValueErrors (encodable cs) := by
  intro e h
  have hmap : RaisesValueErrors (cs.mapM CodePoint.character) := by
    refine mapM (fun c => ?_) cs
    cases c with
    | char c => exact .ok c
    | surrogate n => exact .error rfl
  exact hmap e (map_eq_error.mp h)

theorem raisesValueErrors_urlencode (fields : List (List CodePoint × List CodePoint)) :
    RaisesValueErrors (urlencode fields) := by
  have hquote : ∀ cs, RaisesValueErrors (quotePlus cs) := fun cs =>
    (raisesValueErrors_encodable cs).bind fun s => .ok _
  refine (mapM (fun field => ?_) fields).bind fun quoted => .ok _
  exact (hquote field.1).bind fun name => (hquote field.2).bind fun value => .ok _

theorem raisesValueErrors_checkBrackets (netloc : List CodePoint) :
    RaisesValueErrors (checkBrackets netloc) := by
  unfold checkBrackets
  refine (raisesValueErrors_requireUrl _).bind fun _ => ?_
  split
  · dsimp only
    split
    · exact (raisesValueErrors_requireUrl _).bind fun _ => raisesValueErrors_requireUrl _
    · exact raisesValueErrors_requireUrl _
  · exact .ok ()

variable [TextTables]

theorem raisesValueErrors_urlsplit (url : List CodePoint) : RaisesValueErrors (urlsplit url) := by
  unfold urlsplit
  dsimp only
  refine (raisesValueErrors_checkBrackets _).bind fun _ => bind ?_ fun _ => .ok _
  unfold checkNetloc
  dsimp only
  split
  · exact .ok ()
  · exact raisesValueErrors_requireUrl _

omit [TextTables] in
theorem raisesValueErrors_port (parts : SplitResult) : RaisesValueErrors parts.port := by
  unfold SplitResult.port
  dsimp only
  split
  · exact .ok none
  · exact (raisesValueErrors_requireUrl _).bind fun _ =>
      (raisesValueErrors_requireUrl _).bind fun _ => .ok _

theorem raisesValueErrors_canonicalUrl (url : List CodePoint) :
    RaisesValueErrors (canonicalUrl url) := by
  refine (raisesValueErrors_urlsplit _).bind fun parts => ?_
  dsimp only
  split
  · exact .error rfl
  · refine bind ?_ fun host => (raisesValueErrors_urlencode _).bind fun query => .ok _
    refine (raisesValueErrors_port parts).bind fun port => ?_
    cases port with
    | none => exact .ok _
    | some number =>
      dsimp only
      split
      · exact .ok _
      · exact .ok _

omit [TextTables] in
theorem urlunsplit_head (r : SplitResult) (c : CodePoint) (rest : List CodePoint)
    (h : r.scheme = c :: rest) : (urlunsplit r).head? = some c := by
  have hscheme : r.scheme ≠ [] := by simp [h]
  unfold urlunsplit
  dsimp only
  rw [if_pos hscheme, h]
  split
  · rfl
  · rfl

theorem canonicalUrl_head {url canonical : List CodePoint} (h : canonicalUrl url = .ok canonical) :
    canonical.head? = some (.char 'h') := by
  obtain ⟨parts, -, hrest⟩ := bind_eq_ok.mp h
  dsimp only at hrest
  split at hrest
  · cases hrest
  · obtain ⟨host, -, hrest⟩ := bind_eq_ok.mp hrest
    obtain ⟨query, -, hrest⟩ := bind_eq_ok.mp hrest
    cases hrest
    exact urlunsplit_head _ _ _ rfl

namespace NewsIngestor

variable [UnicodeTable] [Sha256] {g : NewsIngestor} {raw : RawNewsItem}

section

omit [UnicodeTable] [Sha256]

theorem rejectReason_ok (g : NewsIngestor) (raw : RawNewsItem) (now windowStart : Datetime) :
    ∃ reason, g.rejectReason raw now windowStart = .ok reason := by
  unfold rejectReason
  split
  · exact ⟨_, rfl⟩
  · split
    · next e he =>
      rw [if_pos (raisesValueErrors_canonicalUrl _ e he)]
      exact ⟨_, rfl⟩
    · split_ifs
      all_goals exact ⟨_, rfl⟩

theorem rejectReason_of_malformed {e : Error} (h : canonicalUrl raw.originalUrl = .error e)
    (now windowStart : Datetime) :
    ∃ reason, g.rejectReason raw now windowStart = .ok (some reason) := by
  unfold rejectReason
  split
  · exact ⟨_, rfl⟩
  · rw [h]
    dsimp only
    rw [if_pos (raisesValueErrors_canonicalUrl _ e h)]
    exact ⟨_, rfl⟩

theorem canonicalUrl_of_acceptable {now windowStart : Datetime}
    (h : g.rejectReason raw now windowStart = .ok none) :
    ∃ canonical, canonicalUrl raw.originalUrl = .ok canonical := by
  cases hcanonical : canonicalUrl raw.originalUrl with
  | ok canonical => exact ⟨canonical, rfl⟩
  | error e =>
    obtain ⟨reason, hreason⟩ := rejectReason_of_malformed (g := g) hcanonical now windowStart
    rw [h] at hreason
    cases hreason

end

omit [TextTables] in
theorem normalizedFields_valid {canonical : String} (h : isBlank canonical = false) :
    (g.normalizedFields raw canonical).postInit = .ok () := by
  have hid : isBlank (newsId canonical) = false := by
    rw [newsId, isBlank_append]
    rfl
  have hstocks : (g.resolveStocks raw.title raw.description).Nodup := nodup_eraseDups _
  unfold NewsItem.Fields.postInit requireText
  rw [check_bind_eq_ok, check_bind_eq_ok]
  exact ⟨ensure_eq_ok.mpr hid, ensure_eq_ok.mpr h, ensure_eq_ok.mpr hstocks⟩

theorem normalize_eq_ok {canonical : String}
    (h : canonicalUrl raw.originalUrl = .ok (codePoints canonical)) :
    ∃ item, g.normalize raw = .ok item ∧ item.toFields = g.normalizedFields raw canonical := by
  have hhead : canonical.toList.head? = some 'h' := by
    have hchar := canonicalUrl_head h
    rw [codePoints, List.head?_map, Option.map_eq_some_iff] at hchar
    obtain ⟨c, hc, heq⟩ := hchar
    cases heq
    exact hc
  have hblank : isBlank canonical = false := by
    obtain ⟨cs, hcs⟩ := List.head?_eq_some_iff.mp hhead
    simp [isBlank, hcs, isSpace]
  have hencodable : encodable (codePoints canonical) = .ok canonical := encodable_eq_ok.mpr rfl
  refine ⟨⟨g.normalizedFields raw canonical, normalizedFields_valid hblank⟩, ?_, rfl⟩
  unfold normalize
  rw [h]
  show (encodable (codePoints canonical) >>= fun canonical =>
    NewsItem.make (g.normalizedFields raw canonical)) = _
  rw [hencodable]
  exact checked_of_ok (normalizedFields_valid hblank)

open InMemoryNewsStore (Indexed)

section

omit [TextTables] [Sha256]

/-- The contents with a further item unless it repeats one. -/
def withNew (items : List NewsItem) (item : NewsItem) : List NewsItem :=
  if items.any fun x => decide (Repeats item x) then items else items ++ [item]

/-- The contents with further items. -/
def withAll (items batch : List NewsItem) : List NewsItem := batch.foldl withNew items

end

/-- The item that an acceptable raw item is stored as. -/
def accepted (g : NewsIngestor) (now windowStart : Datetime) (raw : RawNewsItem) :
    Option NewsItem :=
  match g.rejectReason raw now windowStart with
  | .ok none => (g.normalize raw).toOption
  | _ => none

omit [TextTables] [Sha256] in
/-- What storing an item does: the store raises, an item with the same address or title is found,
the id is stored, or the item goes to the end of the contents. -/
theorem storeItem_cases {s : InMemoryNewsStore} (h : s.Indexed) (failures : StoreFailures)
    (number : Nat) (item : NewsItem) :
    ((∃ e, storeItem failures number s item = (.error e, s)) ∧
        ((failures.findDuplicate number).isSome ∨
          lookUp s.contents item = none ∧ (failures.upsert number).isSome)) ∨
      (∃ x, lookUp s.contents item = some x ∧
        storeItem failures number s item = (.ok (.duplicate x), s)) ∨
      ((∃ x ∈ s.contents, x.newsId = item.newsId) ∧ lookUp s.contents item = none ∧
        storeItem failures number s item = (.ok (.duplicate item), s)) ∨
      ((∀ x ∈ s.contents, ¬ Repeats item x) ∧
        ∃ after, storeItem failures number s item = (.ok (.stored item), after) ∧ after.Indexed ∧
          after.contents = s.contents ++ [item] ∧ after.cursors = s.cursors) := by
  unfold storeItem
  rw [h.findDuplicate_eq item]
  cases hfind : failures.findDuplicate number with
  | some e => exact .inl ⟨⟨e, rfl⟩, .inl rfl⟩
  | none =>
    cases hfound : lookUp s.contents item with
    | some x => exact .inr (.inl ⟨x, rfl, rfl⟩)
    | none =>
      cases hupsert : failures.upsert number with
      | some e => exact .inl ⟨⟨e, rfl⟩, .inr ⟨rfl, rfl⟩⟩
      | none =>
        dsimp only
        rcases h.upsert_cases item with ⟨hstored, heq⟩ |
            ⟨hfresh, htrue, hcontents, hindexed, hcursors⟩
        · rw [heq]
          exact .inr (.inr (.inl ⟨hstored, rfl, rfl⟩))
        · refine .inr (.inr (.inr ⟨fun x hx => ?_, _, ?_, hindexed, hcontents, hcursors⟩))
          · rintro (hid | hshares)
            · exact hfresh x hx hid
            · exact lookUp_eq_none.mp hfound x hx hshares
          · rw [htrue]
            rfl

variable {items batch : List NewsItem} {x : NewsItem}

section

omit [TextTables] [Sha256]

theorem withNew_of_repeats {item : NewsItem} (h : ∃ x ∈ items, Repeats item x) :
    withNew items item = items := by
  rw [withNew, if_pos]
  simpa using h

theorem withNew_of_new {item : NewsItem} (h : ∀ x ∈ items, ¬ Repeats item x) :
    withNew items item = items ++ [item] := by
  rw [withNew, if_neg]
  simpa using h

theorem mem_withNew {item : NewsItem} (h : x ∈ items) :
    x ∈ withNew items item := by
  unfold withNew
  split
  · exact h
  · exact List.mem_append_left _ h

theorem exists_repeats_withNew (items : List NewsItem) (item : NewsItem) :
    ∃ x ∈ withNew items item, Repeats item x := by
  by_cases h : ∃ x ∈ items, Repeats item x
  · rw [withNew_of_repeats h]
    exact h
  · push Not at h
    rw [withNew_of_new h]
    exact ⟨item, by simp, .inl rfl⟩

theorem mem_withAll (h : x ∈ items) :
    x ∈ withAll items batch := by
  induction batch generalizing items with
  | nil => exact h
  | cons item batch ih => exact ih (mem_withNew h)

theorem exists_repeats_withAll {item : NewsItem} (h : item ∈ batch) :
    ∃ x ∈ withAll items batch, Repeats item x := by
  induction batch generalizing items with
  | nil => cases h
  | cons first batch ih =>
    rcases List.mem_cons.mp h with rfl | hmem
    · obtain ⟨x, hx, hrepeats⟩ := exists_repeats_withNew items item
      have hlater : x ∈ withAll (withNew items item) batch := mem_withAll hx
      exact ⟨x, hlater, hrepeats⟩
    · exact ih hmem

theorem mem_append_of_mem_withAll (h : x ∈ withAll items batch) : x ∈ items ++ batch := by
  induction batch generalizing items with
  | nil => exact List.mem_append_left _ h
  | cons item batch ih =>
    have hlater : x ∈ withNew items item ++ batch := ih h
    rw [List.mem_append] at hlater ⊢
    rcases hlater with hfirst | hmem
    · unfold withNew at hfirst
      split at hfirst
      · exact .inl hfirst
      · rcases List.mem_append.mp hfirst with hold | hnew
        · exact .inl hold
        · exact .inr (List.mem_cons.mpr (.inl (List.mem_singleton.mp hnew)))
    · exact .inr (List.mem_cons_of_mem _ hmem)

end

/-- No item repeats an earlier one. -/
def Distinct (items : List NewsItem) : Prop := items.Pairwise fun x y => ¬ Repeats y x

omit [TextTables] [Sha256] in
theorem Distinct.withAll (h : Distinct items) (batch : List NewsItem) :
    Distinct (withAll items batch) := by
  induction batch generalizing items with
  | nil => exact h
  | cons item batch ih =>
    suffices hfirst : Distinct (withNew items item) from ih hfirst
    by_cases hrepeats : ∃ x ∈ items, Repeats item x
    · rw [withNew_of_repeats hrepeats]
      exact h
    · push Not at hrepeats
      rw [withNew_of_new hrepeats]
      refine List.pairwise_append.mpr ⟨h, List.pairwise_singleton _ _, fun x hx y hy => ?_⟩
      obtain rfl := List.mem_singleton.mp hy
      exact hrepeats x hx

/-- A store that was reached from another one by taking in some items. -/
structure TookIn (before after : InMemoryNewsStore) (items : List NewsItem) : Prop where
  indexed : after.Indexed
  contents : after.contents = withAll before.contents items
  cursors : after.cursors = before.cursors

section

omit [TextTables] [Sha256]

theorem TookIn.nil {s : InMemoryNewsStore} (h : s.Indexed) : TookIn s s [] := ⟨h, rfl, rfl⟩

theorem TookIn.append {a b c : InMemoryNewsStore} (h : TookIn a b items) (h' : TookIn b c batch) :
    TookIn a c (items ++ batch) := by
  refine ⟨h'.indexed, ?_, h'.cursors.trans h.cursors⟩
  rw [h'.contents, h.contents, withAll, withAll, withAll, List.foldl_append]

end

end NewsIngestor

end Dayjaview.News
