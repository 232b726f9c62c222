import Switchboard.Text.Category
import Switchboard.Text.Blank
/-!
# Properties of characters

Some properties of characters are, up to a few ranges, unions of general categories; the others
have a table of their own, in which the label `y` stands for the characters that have the property.
-/

namespace Switchboard

/-- The code point lies in one of the ranges, whose ends are included. -/
def inRanges (ranges : List (Nat × Nat)) (n : Nat) : Bool :=
  ranges.any fun (low, high) => low ≤ n && n ≤ high

/-- The category of the character is one of those given. -/
def hasCategory (categories : List String) (c : Char) : Bool :=
  categories.contains (Category.ofChar c)

/-- The upper case characters that are no upper case letters. -/
def otherUpper : List (Nat × Nat) := [
  (0x2160, 0x216F), (0x24B6, 0x24CF), (0x1F130, 0x1F149), (0x1F150, 0x1F169),
  (0x1F170, 0x1F189)]

/-- The lower case characters that are no lower case letters. -/
def otherLower : List (Nat × Nat) := [
  (0xAA, 0xAA), (0xBA, 0xBA), (0x2B0, 0x2B8), (0x2C0, 0x2C1), (0x2E0, 0x2E4), (0x345, 0x345),
  (0x37A, 0x37A), (0x10FC, 0x10FC), (0x1D2C, 0x1D6A), (0x1D78, 0x1D78), (0x1D9B, 0x1DBF),
  (0x2071, 0x2071), (0x207F, 0x207F), (0x2090, 0x209C), (0x2170, 0x217F), (0x24D0, 0x24E9),
  (0x2C7C, 0x2C7D), (0xA69C, 0xA69D), (0xA770, 0xA770), (0xA7F2, 0xA7F4), (0xA7F8, 0xA7F9),
  (0xAB5C, 0xAB5F), (0xAB69, 0xAB69), (0x10780, 0x10780), (0x10783, 0x10785),
  (0x10787, 0x107B0), (0x107B2, 0x107BA), (0x1E030, 0x1E06D)]

/-- Where the property of being alphabetic changes. -/
def alphabeticLines : List String := [
    "n65y26n6y26n47y1n10y1n4y1n5y23n1y31n1y458n4y12n14y5n7y1n1y1n86y1n42y5n1y2n2y4n1y1n6y1n1y3",
    "n1y1n1y20n1y83n1y139n8y166n1y38n2y1n6y41n39y14n1y1n1y2n1y2n1y1n8y27n4y4n29y11n5y56n1y7n14",
    "y102n1y8n4y8n4y3n10y3n2y1n16y48n13y101n24y33n9y2n4y1n5y24n2y19n19y25n7y11n5y24n1y6n17y42",
    "n10y12n3y7n6y76n1y16n1y3n4y15n13y19n1y8n2y2n2y22n1y7n1y1n3y4n3y8n2y2n2y2n1y1n8y1n4y2n1y5",
    "n12y2n10y1n4y3n1y6n4y2n2y22n1y7n1y2n1y2n1y2n4y5n4y2n2y2n4y1n7y4n1y1n17y6n11y3n1y9n1y3n1",
    "y22n1y7n1y2n1y5n3y9n1y3n1y2n3y1n15y4n21y4n4y3n1y8n2y2n2y22n1y7n1y2n1y5n3y8n2y2n2y2n9y2n4",
    "y2n1y5n13y1n16y2n1y6n3y3n1y4n3y2n1y1n1y2n3y2n3y3n3y12n4y5n3y3n1y3n3y1n6y1n40y13n1y3n1y23",
    "n1y16n3y8n1y3n1y3n8y2n1y3n2y1n2y4n28y4n1y8n1y3n1y23n1y10n1y5n3y8n1y3n1y3n8y2n6y2n1y4n13y3",
    "n12y13n1y3n1y41n2y8n1y3n1y3n1y1n5y4n7y5n22y6n1y3n1y18n3y24n1y9n1y1n2y7n8y6n1y1n1y8n18y2",
    "n13y58n5y7n6y1n51y2n1y1n1y5n1y24n1y1n1y19n1y3n2y5n1y1n6y1n14y4n32y1n63y8n1y36n4y19n4y16n1",
    "y36n67y55n1y1n2y5n16y64n10y4n2y38n1y1n5y1n2y43n1y333n1y4n2y7n1y1n1y4n2y41n1y4n2y33n1y4n2",
    "y7n1y1n1y4n2y15n1y57n1y4n2y67n37y16n16y86n2y6n3y620n2y17n1y26n5y75n3y11n7y20n11y21n12y20",
    "n12y13n1y3n1y2n12y52n2y19n14y1n4y1n67y89n7y43n5y70n10y31n1y12n4y9n23y30n2y5n11y44n4y26n54",
    "y28n4y63n2y20n50y1n23y2n11y3n49y52n1y15n1y8n51y42n2y4n10y44n1y11n14y55n22y3n10y36n2y9n7",
    "y43n2y3n41y4n1y6n1y2n3y1n5y192n39y14n11y278n2y6n2y38n2y6n2y8n1y1n1y1n1y1n1y31n2y53n1y7n1",
    "y1n3y3n1y7n3y4n2y6n4y13n5y3n1y7n116y1n13y1n16y13n101y1n4y1n2y10n1y1n3y5n6y1n1y1n1y1n1y4n1",
    "y11n2y4n5y5n4y1n17y41n813y52n1814y229n6y4n3y2n12y38n1y1n5y1n2y56n7y1n16y23n9y7n1y7n1y7n1",
    "y7n1y7n1y7n1y7n1y7n1y32n47y1n469y3n25y9n7y5n2y5n4y86n6y3n1y90n1y4n5y43n1y94n17y32n48y16",
    "n512y6592n64y22157n67y46n2y269n3y16n10y2n20y47n5y8n3y113n39y9n2y103n2y64n5y2n1y1n1y5n24",
    "y20n1y33n24y52n12y68n1y1n44y6n3y1n1y3n10y33n5y35n13y29n3y51n1y12n15y1n16y16n10y5n1y55n9",
    "y14n18y23n3y69n1y1n1y1n24y3n2y16n2y4n11y6n2y6n2y6n9y7n1y7n1y43n1y14n6y123n21y11172n12y23",
    "n4y49n8452y366n2y106n38y7n12y5n5y12n1y13n1y5n1y1n1y2n1y2n1y108n33y363n18y64n2y54n40y12",
    "n116y5n1y135n36y26n6y26n11y89n3y6n2y6n2y6n2y3n35y12n1y26n1y19n1y2n1y15n2y14n34y123n69y53",
    "n267y29n3y49n47y32n13y30n5y43n5y30n2y36n4y8n1y5n42y158n18y36n4y36n4y40n8y52n12y11n1y15n1",
    "y7n1y2n1y11n1y15n1y7n1y2n67y311n9y22n10y8n24y6n1y42n1y9n69y6n2y1n1y44n1y2n3y1n2y23n10y23",
    "n9y31n65y19n1y2n10y22n10y26n70y56n6y2n64y4n1y2n5y8n1y3n1y29n42y29n3y29n35y8n1y28n27y54n10",
    "y22n10y19n13y18n110y73n55y51n13y51n13y40n344y42n1y2n3y2n78y29n10y1n8y22n42y18n46y21n27y23",
    "n9y70n43y5n10y57n9y1n13y25n23y51n17y4n8y35n3y1n9y64n1y4n9y2n10y1n1y1n35y18n1y34n2y1n6y4",
    "n62y7n1y1n1y4n1y15n1y10n7y57n23y4n1y8n2y2n2y22n1y7n1y2n1y5n3y8n2y2n2y2n3y1n6y1n5y7n156y66",
    "n1y3n1y4n20y3n30y66n2y2n1y1n184y54n2y7n25y6n34y63n1y1n3y1n59y54n2y1n71y27n2y14n21y7n185",
    "y57n103y64n31y8n2y1n2y8n1y2n1y30n1y2n2y2n2y4n93y8n2y46n2y6n1y1n1y2n27y51n2y10n17y72n5y1",
    "n18y73n263y9n1y45n1y7n1y1n49y30n2y22n1y14n73y7n1y2n1y44n3y1n1y2n1y3n1y1n2y2n24y6n1y2n1y37",
    "n1y2n1y4n1y1n327y23n9y17n1y41n3y3n111y1n79y922n102y111n17y196n2636y97n15y1072n17y6n4025",
    "y583n8633y569n7y31n17y79n17y30n18y48n16y4n31y21n5y19n688y64n128y75n4y57n7y17n64y2n1y1n12",
    "y2n14y6136n8y1238n42y9n8935y4n1y7n1y2n1y291n15y1n29y3n2y1n14y4n8y396n2308y107n5y13n3y9n7",
    "y10n4y1n5985y85n1y71n1y2n2y1n2y2n2y4n1y12n1y1n1y7n1y65n1y4n2y8n1y7n1y28n1y4n1y5n1y1n3y7n1",
    "y340n2y25n1y25n1y31n1y25n1y31n1y25n1y31n1y25n1y31n1y25n1y8n1844y31n6y6n213y7n1y17n2y7n1y2",
    "n1y5n5y62n33y1n112y45n10y7n16y1n321y30n18y44n484y28n756y7n1y4n1y2n1y15n1y197n59y68n3y1n3",
    "y1n1204y4n1y27n1y2n1y1n2y1n1y10n1y4n1y1n1y1n6y1n4y1n1y1n1y1n1y3n1y2n1y1n2y1n1y1n1y1n1y1n1",
    "y1n1y2n1y1n2y4n1y7n1y4n1y4n1y1n1y10n1y17n5y3n1y5n1y17n628y26n6y26n6y26n3702y42720n32y4154",
    "n6y222n2y5762n14y7473n3103y542n1506y4939n5y4192n908368"]

/-- The table of alphabetic characters. -/
def alphabeticTable : Runs := Runs.ofLines alphabeticLines

/-- Where the property of extending a grapheme changes. -/
def extendingLines : List String := [
    "n768y112n275y7n263y45n1y1n1y2n1y2n1y1n72y11n48y21n16y1n101y7n2y6n2y2n1y4n35y1n30y27n91y11",
    "n58y9n9y1n24y4n1y9n1y3n1y5n43y3n60y8n42y24n1y32n55y1n1y1n4y8n4y1n3y7n10y2n29y1n58y1n1y1n2",
    "y4n8y1n9y1n10y2n26y1n2y2n57y1n4y2n4y2n2y3n3y1n30y2n3y1n11y2n57y1n4y5n1y2n4y1n20y2n22y6n1",
    "y1n58y1n1y2n1y4n8y1n7y3n10y2n30y1n59y1n1y1n12y1n9y1n40y1n3y1n55y1n1y3n5y3n1y4n7y2n11y2n29",
    "y1n58y1n2y1n2y1n3y1n5y2n7y2n11y2n28y2n57y2n1y1n2y4n8y1n9y1n10y2n29y1n72y1n4y1n2y3n1y1n8y1",
    "n81y1n2y7n12y8n98y1n2y9n11y7n73y2n27y1n1y1n1y1n55y14n1y5n1y2n5y11n1y36n9y1n102y4n1y6n1y2",
    "n2y2n25y2n4y3n16y4n13y1n2y2n6y1n15y1n703y3n946y3n29y2n30y2n30y2n64y2n1y7n8y1n2y11n9y1n45",
    "y3n1y1n117y2n34y1n118y3n4y2n9y1n6y3n219y2n2y1n58y1n1y7n1y1n1y1n2y8n6y10n2y1n48y31n49y4n48",
    "y7n1y1n5y1n40y9n12y2n32y4n2y2n1y3n56y1n1y2n3y1n1y3n58y8n2y2n152y3n1y13n1y7n4y1n6y1n3y2",
    "n198y64n524y1n195y33n3070y3n141y1n96y32n554y6n105y2n30164y4n1y10n32y2n80y2n272y1n3y1n4y1",
    "n25y2n5y1n151y2n26y18n13y1n38y8n25y11n46y3n48y1n2y4n2y2n39y1n67y6n2y2n2y2n12y1n8y1n47y1",
    "n51y1n1y3n2y2n5y2n1y1n42y2n8y1n238y1n2y1n4y1n20272y1n737y16n16y16n366y2n605y1n226y1n149y5",
    "n1670y3n1y2n5y4n40y3n4y1n165y2n573y4n387y2n80y3n70y11n49y4n123y1n54y15n41y1n2y2n10y3n49y4",
    "n2y2n7y1n61y3n36y5n1y8n62y1n12y2n52y9n10y4n2y1n95y3n2y1n1y2n6y1n2y1n157y1n3y8n21y2n57y2n1",
    "y1n1y1n22y1n14y7n3y5n195y8n2y3n1y1n23y1n81y1n2y6n1y1n2y1n1y2n1y2n235y1n2y4n6y2n1y2n27y2",
    "n85y8n2y1n1y2n106y1n1y1n2y6n1y1n101y3n2y4n1y5n259y9n1y2n245y1n10y2n1y1n4y1n144y4n2y2n4y1",
    "n32y10n40y6n2y4n8y1n9y6n2y3n46y13n1y2n406y7n1y6n1y1n82y22n2y7n1y2n1y2n122y6n3y1n1y2n1y7n1",
    "y1n72y2n3y1n1y1n347y2n11y2n52y5n5y1n1y1n5373y1n6y15n13978y5n59y7n1048y1n63y4n81y1n19640y2",
    "n4705y46n2y23n542y1n1y3n4y5n8y8n2y7n30y4n148y3n1979y55n4y50n8y1n14y1n22y5n1y15n1360y7n1",
    "y17n2y7n1y2n1y5n100y1n160y7n375y1n61y4n508y4n992y7n109y7n792277y96n128y240n196112"]

/-- The table of characters that extend a grapheme. -/
def extendingTable : Runs := Runs.ofLines extendingLines

/-- Letters, and marks and symbols that are used like letters. -/
def isAlphabetic (c : Char) : Bool := alphabeticTable.label c.toNat = "y"

/-- Characters that are shown together with the one before them. -/
def extendsGrapheme (c : Char) : Bool := extendingTable.label c.toNat = "y"

/-- Upper case characters. -/
def isUpperCase (c : Char) : Bool := hasCategory ["Lu"] c || inRanges otherUpper c.toNat

/-- Lower case characters. -/
def isLowerCase (c : Char) : Bool := hasCategory ["Ll"] c || inRanges otherLower c.toNat

/-- Letters, digits and other numbers. -/
def isAlphanumeric (c : Char) : Bool := isAlphabetic c || hasCategory ["Nd", "Nl", "No"] c

/-- Characters of words: alphabetic ones, marks, digits, connectors and joiners. -/
def isWordChar (c : Char) : Bool :=
  isAlphabetic c || hasCategory ["Mn", "Mc", "Me", "Nd", "Pc"] c || c.toNat = 0x200C ||
    c.toNat = 0x200D

/-- Characters that are shown as they are: no controls, formats or unassigned ones, and no
separators but the space. -/
def isShown (c : Char) : Bool :=
  c = ' ' || !hasCategory ["Cc", "Cf", "Cs", "Co", "Cn", "Zl", "Zp", "Zs"] c

end Switchboard
