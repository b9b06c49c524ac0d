import ObjectMapping.Proofs.NaturalIds

/-!
# Accounts of natural identifiers

The account of one walk over a body, `Registry.Identifies`, says which parts the natural identifier
of the owner has got, and that those of other entities are as before.  The parts of a group are
covered by the unique key of their table once the group is bound; until then their columns are among
those that the walk hands on.  Subclasses are registered on the way, with bodies of their own, and
each of these bodies is realized by the time that the next element is met.

Accounts are composed as the walk is.  This rests on names being fresh: what is bound for one entity
cannot change another one that was there before.
-/

namespace ObjectMapping

open Registry

namespace Registry

variable {r r' r'' : Registry}

/-! ## Unique keys -/

/-- The unique key of natural identifiers on a table has some columns. -/
def HasNaturalKey (r : Registry) (id : TableId) (columns : List String) : Prop :=
  ∃ t k, r.table? id = some t ∧ t.uniqueKeys.get? naturalIdKey = some k ∧ columns ⊆ k.columns

/-- Columns of a natural key stay in it. -/
theorem HasNaturalKey.later {id : TableId} {columns : List String}
    (h : r.HasNaturalKey id columns) (hlater : r.Upgrades r') : r'.HasNaturalKey id columns := by
  obtain ⟨t, k, ht, hk, hcolumns⟩ := h
  obtain ⟨t', ht', hcovered⟩ := hlater.covered.getIdx? ht
  obtain ⟨k', hk', hsubset⟩ := hcovered.uniqueKeys.get? hk
  exact ⟨t', k', ht', hk', List.Subset.trans hcolumns hsubset⟩

/-- A table stays where it is. -/
theorem Holds.later {id : TableId} (h : r.Holds id) (hlater : r.Upgrades r') : r'.Holds id := by
  obtain ⟨t, ht⟩ := h
  obtain ⟨t', ht', -⟩ := hlater.tables.getIdx? ht
  exact ⟨t', ht'⟩

/-! ## Accounts -/

/-- The unique keys of tables cover the natural identifiers of all entities in them. -/
def NaturalIdsCovered (r : Registry) : Prop :=
  ∀ name k, r.naturalId? name = some k → ∀ part ∈ k.parts, r.HasNaturalKey k.table part.columns

/-- What the groups of a body say holds of its entity: the properties in them, and no others, are
flagged, and the unique key of the table covers each of these. -/
def Realizes (r : Registry) (body : String × List Element) : Prop :=
  ∃ k, r.naturalId? body.1 = some k ∧ k.parts.map NaturalPart.mark = naturalMarks body.2 ∧
    ∀ part ∈ k.parts, r.HasNaturalKey k.table part.columns

/-- Some bodies are realized for new entities, and there are no other new ones. -/
structure Populates (bodies : List (String × List Element)) (r r' : Registry) : Prop where
  fresh : ∀ body ∈ bodies, r.naturalId? body.1 = none
  realized : ∀ body ∈ bodies, r'.Realizes body
  only : ∀ name k, r'.naturalId? name = some k →
    (∃ k', r.naturalId? name = some k') ∨ ∃ body ∈ bodies, body.1 = name

/-- Some bodies are realized for new entities, and no natural identifier that was there is
changed. -/
structure Adds (bodies : List (String × List Element)) (r r' : Registry) : Prop
    extends Populates bodies r r' where
  kept : ∀ name k, r.naturalId? name = some k → r'.naturalId? name = some k

/-- The walk over a body has come some way.  The natural identifier of the owner has got parts with
some marks, each of them covered by the unique key of the table, or else, inside a group, to be
covered by it with the columns that the walk hands on.  Other entities keep theirs, and the bodies
that were met are realized. -/
structure Identifies (owner : Owner) (grouped : Bool) (marks : List NaturalMark)
    (bodies : List (String × List Element)) (columns : List String) (r r' : Registry) : Prop
    extends Populates bodies r r' where
  others : ∀ name k, name ≠ owner.name → r.naturalId? name = some k →
    r'.naturalId? name = some k
  own : ∀ k, r.naturalId? owner.name = some k → ∃ parts,
    r'.naturalId? owner.name = some (k.append parts) ∧ parts.map NaturalPart.mark = marks ∧
      ∀ part ∈ parts, r'.HasNaturalKey owner.table part.columns ∨
        grouped = true ∧ part.columns ⊆ columns

/-- The owner of a body is registered, and its table is there. -/
structure Knows (r : Registry) (owner : Owner) : Prop where
  held : r.Holds owner.table
  known : ∃ k, r.naturalId? owner.name = some k

/-- A body that is realized stays so as long as its entity keeps its natural identifier. -/
theorem Realizes.later {body : String × List Element} (h : r.Realizes body)
    (hlater : r.Upgrades r') (hkept : ∀ k, r.naturalId? body.1 = some k →
      r'.naturalId? body.1 = some k) : r'.Realizes body := by
  obtain ⟨k, hk, hmarks, hcovered⟩ := h
  exact ⟨k, hkept k hk, hmarks, fun part hpart => (hcovered part hpart).later hlater⟩

/-- No bodies are realized if there are no new entities. -/
theorem Populates.nil (h : ∀ name k, r'.naturalId? name = some k →
    ∃ k', r.naturalId? name = some k') : Populates [] r r' :=
  ⟨List.forall_mem_nil _, List.forall_mem_nil _, fun name k hk => .inl (h name k hk)⟩

/-- Bodies that are realized one after another, if the later ones change none of the entities that
were there before. -/
theorem Populates.trans {bodies bodies' : List (String × List Element)}
    (h : Populates bodies r r') (h' : Populates bodies' r' r'') (hlater : r'.Upgrades r'')
    (hknown : ∀ name k, r.naturalId? name = some k → ∃ k', r'.naturalId? name = some k')
    (hkept : ∀ body ∈ bodies, ∀ k, r'.naturalId? body.1 = some k →
      r''.naturalId? body.1 = some k) : Populates (bodies ++ bodies') r r'' where
  fresh body hbody := by
    rcases List.mem_append.mp hbody with hfirst | hsecond
    · exact h.fresh body hfirst
    · by_contra hold
      obtain ⟨k, hk⟩ := Option.ne_none_iff_exists'.mp hold
      obtain ⟨k', hk'⟩ := hknown body.1 k hk
      rw [h'.fresh body hsecond] at hk'
      cases hk'
  realized body hbody := by
    rcases List.mem_append.mp hbody with hfirst | hsecond
    · exact (h.realized body hfirst).later hlater (hkept body hfirst)
    · exact h'.realized body hsecond
  only name k hk := by
    rcases h'.only name k hk with ⟨k', hk'⟩ | ⟨body, hbody, hname⟩
    · refine (h.only name k' hk').imp id fun ⟨body, hbody, hname⟩ => ?_
      exact ⟨body, List.mem_append_left _ hbody, hname⟩
    · exact .inr ⟨body, List.mem_append_right _ hbody, hname⟩

namespace Adds

variable {bodies bodies' : List (String × List Element)}

/-- Nothing is added where natural identifiers stay as they are. -/
theorem of_same (h : r.SameNaturalIds r') : Adds [] r r' where
  toPopulates := .nil fun name k hk => ⟨k, (h name).symm.trans hk⟩
  kept name _ hk := (h name).trans hk

/-- What two steps add is added by both together. -/
theorem trans (h : Adds bodies r r') (h' : Adds bodies' r' r'') (hlater : r'.Upgrades r'') :
    Adds (bodies ++ bodies') r r'' where
  toPopulates := h.toPopulates.trans h'.toPopulates hlater
    (fun name k hk => ⟨k, h.kept name k hk⟩) fun body _ => h'.kept body.1
  kept name k hk := h'.kept name k (h.kept name k hk)

/-- Natural identifiers that unique keys cover stay covered, and those of added bodies are. -/
theorem covered (h : Adds bodies r r') (hlater : r.Upgrades r') (hr : r.NaturalIdsCovered) :
    r'.NaturalIdsCovered := by
  intro name k hk
  rcases h.only name k hk with ⟨k', hk'⟩ | ⟨body, hbody, rfl⟩
  · cases hk.symm.trans (h.kept name k' hk')
    exact fun part hpart => (hr name k hk' part hpart).later hlater
  · obtain ⟨k', hk', -, hcovered⟩ := h.realized body hbody
    cases hk.symm.trans hk'
    exact hcovered

end Adds

namespace Identifies

variable {owner : Owner} {grouped : Bool} {marks marks' : List NaturalMark}
  {bodies bodies' : List (String × List Element)} {columns columns' : List String}

/-- Entities that are added next to the owner leave its natural identifier alone. -/
theorem of_adds (h : Adds bodies r r') : Identifies owner grouped [] bodies columns r r' where
  toPopulates := h.toPopulates
  others name k _ hk := h.kept name k hk
  own k hk := ⟨[], by rw [h.kept _ k hk, NaturalId.append, List.append_nil], rfl,
    List.forall_mem_nil _⟩

theorem of_same (h : r.SameNaturalIds r') : Identifies owner grouped [] [] columns r r' :=
  .of_adds (.of_same h)

/-- What comes before may leave natural identifiers alone. -/
theorem preceded_by_same (h : Identifies owner grouped marks bodies columns r' r'')
    (hsame : r.SameNaturalIds r') : Identifies owner grouped marks bodies columns r r'' where
  fresh body hbody := (hsame body.1).symm.trans (h.fresh body hbody)
  realized := h.realized
  only name k hk := (h.only name k hk).imp_left fun ⟨k', hk'⟩ => ⟨k', (hsame name).symm.trans hk'⟩
  others name k hname hk := h.others name k hname ((hsame name).trans hk)
  own k hk := h.own k ((hsame owner.name).trans hk)

/-- The owner is known after the walk if it was before. -/
theorem knows (h : Identifies owner grouped marks bodies columns r r') (hlater : r.Upgrades r')
    (hknows : r.Knows owner) : r'.Knows owner := by
  obtain ⟨k, hk⟩ := hknows.known
  obtain ⟨parts, hparts, -⟩ := h.own k hk
  exact ⟨hknows.held.later hlater, _, hparts⟩

/-- Two parts of a walk, one after the other. -/
theorem trans (h : Identifies owner grouped marks bodies columns r r')
    (h' : Identifies owner grouped marks' bodies' columns' r' r'') (hlater : r'.Upgrades r'')
    (hknows : r.Knows owner) :
    Identifies owner grouped (marks ++ marks') (bodies ++ bodies') (columns ++ columns') r r'' where
  toPopulates := by
    refine h.toPopulates.trans h'.toPopulates hlater (fun name k hk => ?_) fun body hbody => ?_
    · by_cases hname : name = owner.name
      · subst hname
        obtain ⟨parts, hparts, -⟩ := h.own k hk
        exact ⟨_, hparts⟩
      · exact ⟨k, h.others name k hname hk⟩
    · -- The owner was there before the first part, so it is none of the new entities.
      have hother : body.1 ≠ owner.name := by
        intro hsame
        obtain ⟨k₀, hk₀⟩ := hknows.known
        have hfresh := h.fresh body hbody
        rw [hsame, hk₀] at hfresh
        cases hfresh
      exact fun k => h'.others body.1 k hother
  others name k hname hk := h'.others name k hname (h.others name k hname hk)
  own k hk := by
    obtain ⟨parts, hparts, hmarks, hcovered⟩ := h.own k hk
    obtain ⟨parts', hparts', hmarks', hcovered'⟩ := h'.own _ hparts
    refine ⟨parts ++ parts', ?_, ?_, fun part hpart => ?_⟩
    · rw [hparts', NaturalId.append, NaturalId.append, NaturalId.append, List.append_assoc]
    · rw [List.map_append, hmarks, hmarks']
    · rcases List.mem_append.mp hpart with hfirst | hsecond
      · exact (hcovered part hfirst).imp (·.later hlater) fun hpending =>
          ⟨hpending.1, List.subset_append_of_subset_left _ hpending.2⟩
      · exact (hcovered' part hsecond).imp id fun hpending =>
          ⟨hpending.1, List.subset_append_of_subset_right _ hpending.2⟩

/-- What follows may leave natural identifiers alone. -/
theorem followed_by_same (h : Identifies owner grouped marks bodies columns r r')
    (h' : r'.SameNaturalIds r'') (hlater : r'.Upgrades r'') (hknows : r.Knows owner) :
    Identifies owner grouped marks bodies columns r r'' := by
  have hrest : Identifies owner grouped [] [] [] r' r'' := .of_same h'
  have hall := h.trans hrest hlater hknows
  rwa [List.append_nil, List.append_nil, List.append_nil] at hall

/-- Once a unique key has the columns that the walk hands on, all parts are covered. -/
theorem covered {grouped' : Bool} (h : Identifies owner grouped marks bodies columns r r')
    (hkey : r'.HasNaturalKey owner.table columns) :
    Identifies owner grouped' marks bodies columns' r r' where
  toPopulates := h.toPopulates
  others := h.others
  own k hk := by
    obtain ⟨parts, hparts, hmarks, hcovered⟩ := h.own k hk
    refine ⟨parts, hparts, hmarks, fun part hpart => .inl ?_⟩
    rcases hcovered part hpart with hin | ⟨-, hpending⟩
    · exact hin
    · obtain ⟨t, key, ht, hk', hsubset⟩ := hkey
      exact ⟨t, key, ht, hk', List.Subset.trans hpending hsubset⟩

end Identifies

end Registry

/-! ## Opening entities -/

/-- An entity is registered under a fresh name and has no natural identifier yet; no other one is
changed. -/
structure Opens (name : String) (r r' : Registry) : Prop where
  fresh : r.naturalId? name = none
  others : ∀ other, other ≠ name → r'.naturalId? other = r.naturalId? other
  opened : ∃ e, r'.entity? name = some e ∧ e.name = name ∧ e.naturalId.parts = []

namespace Opens

variable {name : String} {r r' r'' : Registry}

/-- What comes before may leave natural identifiers alone. -/
theorem preceded_by_same (h : Opens name r' r'') (hsame : r.SameNaturalIds r') :
    Opens name r r'' where
  fresh := (hsame name).symm.trans h.fresh
  others other hother := (h.others other hother).trans (hsame other)
  opened := h.opened

/-- So may what follows. -/
theorem followed_by_same (h : Opens name r r') (hsame : r'.SameNaturalIds r'')
    (hlater : r'.Upgrades r'') : Opens name r r'' where
  fresh := h.fresh
  others other hother := (hsame other).trans (h.others other hother)
  opened := by
    obtain ⟨e, he, hname, hbare⟩ := h.opened
    obtain ⟨e', he', hextends⟩ := hlater.entities.get? he
    have hkept := hsame name
    rw [naturalId?, naturalId?, he, show r''.entity? name = some e' from he', Option.map_some,
      Option.map_some, Option.some.injEq] at hkept
    exact ⟨e', he', hextends.name.trans hname, hkept ▸ hbare⟩

/-- A body that is bound for the new entity is realized along with the subclasses in it. -/
theorem adds (h : Opens name r r') {owner : Owner} {children : List Element}
    {bodies : List (String × List Element)} {columns : List String} {e : Entity}
    (he : r'.entity? owner.name = some e) (howner : owner.name = name ∧ owner.table = e.table)
    (hbody : Identifies owner false (naturalMarks children) bodies columns r' r'') :
    Adds ((name, children) :: bodies) r r'' := by
  obtain ⟨rfl, htable⟩ := howner
  have hnew : r'.naturalId? owner.name = some ⟨e.table, []⟩ := by
    obtain ⟨e', he', -, hbare⟩ := h.opened
    cases he.symm.trans he'
    rw [naturalId?, he, Option.map_some, ← hbare]
    rfl
  have hother : ∀ other k, r.naturalId? other = some k → other ≠ owner.name := by
    rintro other k hk rfl
    rw [h.fresh] at hk
    cases hk
  refine ⟨⟨fun body hin => ?_, fun body hin => ?_, fun other k hk => ?_⟩, fun other k hk => ?_⟩
  · rcases List.mem_cons.mp hin with rfl | hin
    · exact h.fresh
    · have hfresh := hbody.fresh body hin
      by_cases hsame : body.1 = owner.name
      · rw [hsame]
        exact h.fresh
      · rwa [h.others body.1 hsame] at hfresh
  · rcases List.mem_cons.mp hin with rfl | hin
    · obtain ⟨parts, hparts, hmarks, hcovered⟩ := hbody.own _ hnew
      refine ⟨_, hparts, hmarks, fun part hpart => ?_⟩
      rcases hcovered part hpart with hin | ⟨hgrouped, -⟩
      · rwa [htable] at hin
      · cases hgrouped
    · exact hbody.realized body hin
  · by_cases hsame : other = owner.name
    · exact .inr ⟨(owner.name, children), List.mem_cons_self, hsame.symm⟩
    · rw [← h.others other hsame]
      rcases hbody.only other k hk with hold | ⟨body, hin, hname⟩
      · exact .inl hold
      · exact .inr ⟨body, List.mem_cons_of_mem _ hin, hname⟩
  · exact hbody.others other k (hother other k hk) ((h.others other (hother other k hk)).trans hk)

end Opens

end ObjectMapping
