import GroovyViews.Proofs.Converted
import Mathlib.Data.List.Nodup

/-!
# Qualifiers and the preamble

The body of a converted view qualifies calls by prefixes, and the preamble binds prefixes to
namespaces. The two are written apart from each other, but both go by the table of prefixes: each
qualifier in the body is bound in the preamble, once, and to the namespace of the element.
-/

namespace GroovyViews

open Xml (Binding)

namespace PrefixTable

variable {t : PrefixTable} {declared : List Binding}

/-- The prefix that is found for a namespace belongs to an entry with this namespace, or with what
it stands for between braces. -/
theorem exists_mem_of_prefixOf?_eq {uri pfx : String} (h : t.prefixOf? uri = some pfx) :
    ∃ b ∈ t.entries, b.pfx = pfx ∧ (uri = b.uri ∨ uri = Xml.braced b.uri) := by
  obtain ⟨b, hfind, hpfx⟩ := Option.map_eq_some_iff.mp h
  have hkey : Xml.braced b.uri = key uri := by simpa using List.find?_some hfind
  refine ⟨b, List.mem_of_find?_eq_some hfind, hpfx, ?_⟩
  by_cases hbrace : BeginsWithBrace uri
  · have hself : key uri = uri := if_pos hbrace
    exact .inr (hkey.trans hself).symm
  · have hbraced : key uri = Xml.braced uri := if_neg hbrace
    exact .inl (braced_inj.mp (hkey.trans hbraced)).symm

/-- No entry of a table stands in it twice. -/
theorem Represents.nodup (h : t.Represents declared) : t.entries.Nodup := by
  rw [h.entries]
  clear h
  induction declared using List.reverseRecOn with
  | nil => exact List.nodup_nil
  | append_singleton declared b ih =>
    rw [List.eraseDups_append]
    by_cases hb : b ∈ declared
    · simpa [List.removeAll, hb] using ih
    · simpa [List.removeAll, hb, List.eraseDups_cons, List.nodup_append] using
        ⟨ih, fun a ha hab => hb (hab ▸ ha)⟩

/-- No two entries have the same prefix. -/
theorem Represents.nodup_pfx (h : t.Represents declared) : (t.entries.map Binding.pfx).Nodup :=
  h.nodup.map_on fun _ ha _ hb => h.oneToOne.eq_of_pfx (h.mem_iff.mp ha) (h.mem_iff.mp hb)

/-- No two entries have the same namespace. -/
theorem Represents.nodup_uri (h : t.Represents declared) : (t.entries.map Binding.uri).Nodup :=
  h.nodup.map_on fun _ ha _ hb => h.oneToOne.eq_of_uri (h.mem_iff.mp ha) (h.mem_iff.mp hb)

end PrefixTable

/-- If no two bindings have the same prefix, then there is one binding with the prefix of each. -/
theorem filter_pfx_eq_singleton {bindings : List Binding} (h : (bindings.map Binding.pfx).Nodup)
    {b : Binding} (hb : b ∈ bindings) : bindings.filter (fun a => a.pfx == b.pfx) = [b] := by
  induction bindings with
  | nil => simp at hb
  | cons a rest ih =>
    obtain ⟨ha, hrest⟩ := List.nodup_cons.mp h
    rcases List.mem_cons.mp hb with rfl | hb
    · have hnone : rest.filter (fun a => a.pfx == b.pfx) = [] := by
        refine List.filter_eq_nil_iff.mpr fun c hc heq => ha ?_
        exact List.mem_map.mpr ⟨c, hc, by simpa using heq⟩
      simp [hnone]
    · have hne : a.pfx ≠ b.pfx := fun heq => ha (List.mem_map.mpr ⟨b, hb, heq.symm⟩)
      simp [hne, ih hrest hb]

/-- A call is what an element is without a namespace, or with one that is not the control namespace
and has a prefix, which then qualifies it. -/
theorem Role.ofName_eq_call_iff {t : PrefixTable} {name : Xml.ExpandedName}
    {qualifier tag : String} :
    ofName t name = .ok (.call qualifier tag) ↔ tag = name.localName ∧
      ((name.uri = none ∧ qualifier = "") ∨ ∃ uri, name.uri = some uri ∧
        isControlUri uri = false ∧ t.prefixOf? uri = some qualifier) := by
  unfold ofName PrefixTable.prefixOf
  cases name.uri with
  | none =>
    constructor
    · intro h
      cases h
      exact ⟨rfl, .inl ⟨rfl, rfl⟩⟩
    · rintro ⟨rfl, ⟨-, rfl⟩ | ⟨uri, huri, -⟩⟩
      · rfl
      · cases huri
  | some uri =>
    cases hcontrol : isControlUri uri with
    | true => simp [hcontrol]
    | false =>
      cases hpfx : t.prefixOf? uri with
      | none => simp [hcontrol, hpfx, Except.map]
      | some pfx =>
        simp only [hcontrol, hpfx, Except.map, Bool.false_eq_true, if_false, Except.ok.injEq,
          call.injEq, reduceCtorEq, false_and, false_or, Option.some.injEq, exists_eq_left',
          true_and]
        exact ⟨fun h => ⟨h.2.symm, h.1⟩, fun h => ⟨h.2, h.1.symm⟩⟩

/-- The line of a call begins with its method and an opening parenthesis. -/
theorem Writer.exists_visitText_of_call {w : Writer} {s : Xml.Site} {qualifier tag : String}
    (hclean : w.complaint? Xml.Element.attr? s.element = none)
    (hrole : w.role? s.element = some (.call qualifier tag)) :
    ∃ rest, w.visitText 0 (.enter s) =
      Step.indentation s.depth ++ Groovy.Statement.callee qualifier tag ++ "(" ++ rest := by
  obtain ⟨role, st, hname, hst, hcases⟩ := exists_states 0 hclean
  obtain rfl : role = .call qualifier tag := by
    simpa [role?, hname, Except.toOption] using hrole
  cases hst with
  | @call _ _ arguments hargs =>
    rcases hcases with ⟨hnone, -⟩ | ⟨statement, hsome, -, htext⟩
    · cases hnone
    · cases hsome
      refine ⟨String.intercalate ", " (arguments.map (Groovy.Argument.render w.options.escaping)) ++
        ")" ++ (Groovy.Statement.call qualifier tag arguments).lineEnd (w.opensBlock s.element) ++
        "\n", ?_⟩
      rw [htext]
      simp [Step.text, Groovy.Statement.line, Groovy.Statement.head, String.append_assoc]

namespace Conversion

/-- **Qualifiers and the preamble.** A converted view is a preamble, with one line for each declared
prefix, and a body, with one line for each call. No two lines of the preamble are for the same
prefix or for the same namespace. A call is written with its method, and this with a qualifier
unless that is empty. For a qualifier there is exactly one line of the preamble, and it binds the
qualifier to the namespace of the element or to what that stands for between braces. A call has no
qualifier exactly if its element has no namespace, or one for which the empty prefix is found. -/
theorem text_qualifiers (c : Conversion) (out : String) (h : c.text = .ok out) :
    ∃ w start, c.entry = .ok (w, start) ∧
      out = "// Namespaces\n" ++
        String.join (w.bound.map fun b => b.pfx ++ " = namespace(\"" ++ b.uri ++ "\")" ++ "\n") ++
          "\n\n" ++ String.join (start.visits.map (w.visitText 0)) ∧
      (w.bound.map Binding.pfx).Nodup ∧ (w.bound.map Binding.uri).Nodup ∧
      ∀ s ∈ start.sites, ∀ qualifier tag, w.role? s.element = some (.call qualifier tag) →
        (∃ rest, w.visitText 0 (.enter s) = Step.indentation s.depth ++
          (if qualifier = "" then tag else qualifier ++ "." ++ tag) ++ "(" ++ rest) ∧
        (qualifier ≠ "" → ∃ uri,
          w.bound.filter (fun b => b.pfx == qualifier) = [⟨qualifier, uri⟩] ∧
          (s.element.name.uri = some uri ∨ s.element.name.uri = some (Xml.braced uri))) ∧
        (qualifier = "" ↔ s.element.name.uri = none ∨ ∃ uri,
          s.element.name.uri = some uri ∧ w.prefixes.prefixOf? uri = some "") := by
  obtain ⟨d, w, start, hentry, hc⟩ := exists_converts h
  have hpfx : (w.bound.map Binding.pfx).Nodup :=
    hc.table.nodup_pfx.sublist (List.filter_sublist.map _)
  have huri : (w.bound.map Binding.uri).Nodup :=
    hc.table.nodup_uri.sublist (List.filter_sublist.map _)
  refine ⟨w, start, hentry, ?_, hpfx, huri, fun s hs qualifier tag hrole => ?_⟩
  · rw [hc.text, w.text_preamble]
    rfl
  · obtain ⟨-, hcases⟩ := Role.ofName_eq_call_iff.mp (eq_ok_of_toOption hrole)
    refine ⟨?_, fun hne => ?_, ?_⟩
    · have hcallee : Groovy.Statement.callee qualifier tag =
          if qualifier = "" then tag else qualifier ++ "." ++ tag := by
        simp [Groovy.Statement.callee]
      rw [← hcallee]
      exact Writer.exists_visitText_of_call (hc.clean s hs) hrole
    · rcases hcases with ⟨-, hempty⟩ | ⟨uri, hname, -, hfound⟩
      · exact absurd hempty hne
      · obtain ⟨b, hb, rfl, hbound⟩ := PrefixTable.exists_mem_of_prefixOf?_eq hfound
        have hmem : b ∈ w.bound := List.mem_filter.mpr ⟨hb, by simpa using hne⟩
        refine ⟨b.uri, filter_pfx_eq_singleton hpfx hmem, ?_⟩
        rw [hname]
        rcases hbound with rfl | rfl
        · exact .inl rfl
        · exact .inr rfl
    · constructor
      · rintro rfl
        rcases hcases with ⟨hname, -⟩ | ⟨uri, hname, -, hfound⟩
        · exact .inl hname
        · exact .inr ⟨uri, hname, hfound⟩
      · rintro (hnone | ⟨uri, hsome, hempty⟩)
        · rcases hcases with ⟨-, hqualifier⟩ | ⟨uri, hname, -⟩
          · exact hqualifier
          · simp [hnone] at hname
        · rcases hcases with ⟨hnone, -⟩ | ⟨uri', hname, -, hfound⟩
          · simp [hsome] at hnone
          · obtain rfl : uri = uri' := Option.some.inj (hsome.symm.trans hname)
            exact Option.some.inj (hfound.symm.trans hempty)

/-- A view with a default namespace and with a namespace that is another one between braces. -/
private def nested : Conversion :=
  ⟨"<a:x xmlns:a=\"u\" xmlns=\"v\"><y xmlns:b=\"\x7bu\x7d\"><b:z/></y></a:x>", none, .default⟩

/-- In the view the innermost element is qualified by the prefix of what its namespace stands for
between braces, and this is what the preamble binds the prefix to. -/
theorem text_qualifiers_nested :
    nested.text = .ok ("// Namespaces\na = namespace(\"u\")\nb = namespace(\"\x7bu\x7d\")\n\n\n" ++
      "a.x() \x7b\n  y() \x7b\n    a.z() \n  \x7d\n\x7d\n") ∧
    ∃ w start s uri, nested.entry = .ok (w, start) ∧ s ∈ start.sites ∧
      w.role? s.element = some (.call "a" "z") ∧
      w.bound.filter (fun b => b.pfx == "a") = [⟨"a", uri⟩] ∧
      (s.element.name.uri = some uri ∨ s.element.name.uri = some (Xml.braced uri)) := by
  have htext : nested.text = .ok
      ("// Namespaces\na = namespace(\"u\")\nb = namespace(\"\x7bu\x7d\")\n\n\n" ++
        "a.x() \x7b\n  y() \x7b\n    a.z() \n  \x7d\n\x7d\n") := by
    decide +kernel
  have hroles : nested.entry.toOption.map (fun entry =>
        entry.2.sites.map fun s => entry.1.role? s.element) =
      some [some (.call "a" "x"), some (.call "" "y"), some (.call "a" "z")] := by
    decide +kernel
  obtain ⟨w, start, hentry, -, -, -, hcalls⟩ := text_qualifiers nested _ htext
  rw [hentry] at hroles
  have hmap : start.sites.map (fun s => w.role? s.element) =
      [some (.call "a" "x"), some (.call "" "y"), some (.call "a" "z")] := Option.some.inj hroles
  obtain ⟨s, hs, hrole⟩ := List.mem_map.mp
    (show some (Role.call "a" "z") ∈ start.sites.map fun s => w.role? s.element by simp [hmap])
  obtain ⟨uri, hfilter, hname⟩ := (hcalls s hs "a" "z" hrole).2.1 (by decide)
  exact ⟨htext, w, start, s, uri, hentry, hs, hrole, hfilter, hname⟩

end Conversion

end GroovyViews
