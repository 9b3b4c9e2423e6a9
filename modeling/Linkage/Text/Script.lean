import Linkage.Text.Category

/-! The scripts that characters belong to, and those that they are used in. -/
namespace Linkage

/-- The scripts by their names, with the characters that belong to each. -/
def scripts : List NamedSet := [
  ⟨["adlm", "adlam"],
    .ofTable "hdeUcYEKEC"⟩,
  ⟨["ahom"],
    .ofTable "ebrCbBCPEX"⟩,
  ⟨["hluw", "anatolianhieroglyphs"],
    .ofTable "essEwL"⟩,
  ⟨["arab", "arabic"],
    .ofTable "
      chCFBGBOBDBbGBKLbABeEBbIdCbWjGbFBCFcXBbDdntWeLQnZCdCCcCHBbGQeIFBfFfvNbFcPDcDEdglSEBbBBCBBC
      BBKBEBBBBGBEBBBBBBDBCBBCBBBBBBBBBBCBBCEBHBEBEBBBKBRFDBFBRcAC"⟩,
  ⟨["armn", "armenian"],
    .ofTable "bzDbMCbYCDdozJF"⟩,
  ⟨["avst", "avestan"],
    .ofTable "dxcYcCDH"⟩,
  ⟨["bali", "balinese"],
    .ofTable "kfWcZBbY"⟩,
  ⟨["bamu", "bamum"],
    .ofTable "clcQdKcvcQvX"⟩,
  ⟨["bass", "bassavah"],
    .ofTable "fhkIbECG"⟩,
  ⟨["batk", "batak"],
    .ofTable "knGcAIE"⟩,
  ⟨["beng", "bengali"],
    .ofTable "dpOEBICCCWBHBBDECJCCCEIBECBFCZ"⟩,
  ⟨["bhks", "bhaiksuki"],
    .ofTable "edoIJBbTBOKbD"⟩,
  ⟨["bopo", "bopomofo"],
    .ofTable "bcSCrlXbReIbG"⟩,
  ⟨["brah", "brahmi"],
    .ofTable "dzaEdAEbKJB"⟩,
  ⟨["brai", "braille"],
    .ofTable "pdWjW"⟩,
  ⟨["bugi", "buginese"],
    .ofTable "jwAbCCC"⟩,
  ⟨["buhd", "buhid"],
    .ofTable "iuYU"⟩,
  ⟨["cans", "canadianaboriginal"],
    .ofTable "hoYyQvOcSdtpQQ"⟩,
  ⟨["cari", "carian"],
    .ofTable "dtyMbX"⟩,
  ⟨["aghb", "caucasianalbanian"],
    .ofTable "duxScALB"⟩,
  ⟨["cakm", "chakma"],
    .ofTable "dzkAcBBS"⟩,
  ⟨["cham"],
    .ofTable "cmjWcDJOCKCE"⟩,
  ⟨["cher", "cherokee"],
    .ofTable "hlGdICGcfjEdC"⟩,
  ⟨["chrs", "chorasmian"],
    .ofTable "dyxCbC"⟩,
  ⟨["zyyy", "common"],
    .ofTable "
      AcNbAGbAbVBPBFXBbFBrHbNFFCUeMBJBGBBByNBGBOBDBbGBgABtWBeZCbvTBpPElEBcgLDcTChVCBBbvHBNBHEBGB
      DCBbdTMCdJBLDLBPRbHcLbMBDCGBbBBRbPDEzQWLVbjSjWyECbGBeBtSdQpMVBBBZPIEEdNCDBdMCfRQbGbMJBbWcM
      bFdDbVBdKgMjtOcMbhsIbIdYDgJKjKBgEBpFBOCbezQCiAKWbJBTBEfRBBbGbAGbALKBbTCcMHBHKFjYDEbTDJdCNb
      ZbTiUbBcshWEfvGjQGqUgAeMcIjMKbNCcKDRICHbEEcJiFUMUMdJJZfFdHBcTBCCBCCCEBMBBBHBcNBECIBHBbCBEB
      FBBDHBnCClGCbYhtHcQcYcJbbEbSEdWMPCPBPBbLKgScEbABCNbSEJHCOGfYblWERDNDePEdRGMEBPMEcEIKGbOIbE
      CMECcKnCMOCNDKFcEHPCLGJHfRBdYbsuxBBbEdS"⟩,
  ⟨["copt", "coptic", "qaac"],
    .ofTable "bmGOpjKeMFH"⟩,
  ⟨["xsux", "cuneiform"],
    .ofTable "efbSbjMdYeHBFLhO"⟩,
  ⟨["cprt", "cypriot"],
    .ofTable "dvzKGCBBbSBCDBCB"⟩,
  ⟨["cpmn", "cyprominoan"],
    .ofTable "ekyYdV"⟩,
  ⟨["cyrl", "cyrillic"],
    .ofTable "bnKfDCgNivOLgEBcYBgfNbGbtoAdSbheCCdhpGcKbHB"⟩,
  ⟨["dsrt", "deseret"],
    .ofTable "dumAdC"⟩,
  ⟨["deva", "devanagari"],
    .ofTable "dkQdDEPCbAcijGbGbreMK"⟩,
  ⟨["diak", "divesakuru"],
    .ofTable "eckUHCBCIBCBbEBCCMJK"⟩,
  ⟨["dogr", "dogra"],
    .ofTable "ecaYcI"⟩,
  ⟨["dupl", "duployan"],
    .ofTable "gmdSeDFNDJHKCE"⟩,
  ⟨["egyp", "egyptianhieroglyphs"],
    .ofTable "eldGbqSKfxR"⟩,
  ⟨["elba", "elbasan"],
    .ofTable "duvWbO"⟩,
  ⟨["elym", "elymaic"],
    .ofTable "dyyYX"⟩,
  ⟨["ethi", "ethiopic"],
    .ofTable "
      gvGcVBECHBBBECbPBECbHBECHBBBECPBcFBECcPCbGDbAjvAXJHBHBHBHBHBHBHBHbvkCGCGCGJHBHepyFHBEBCBP"⟩,
  ⟨["gara", "garay"],
    .ofTable "dxzCbMDbDIC"⟩,
  ⟨["geor", "georgian"],
    .ofTable "ghSbMBBFBCbRBEejWbRCDgeAbMBBFB"⟩,
  ⟨["glag", "glagolitic"],
    .ofTable "qrGdSgizGHBRCHBCBF"⟩,
  ⟨["goth", "gothic"],
    .ofTable "dueAbB"⟩,
  ⟨["gran", "grantha"],
    .ofTable "eadSEBICCCWBHBCBFCJCCCDCBGBFHCHDF"⟩,
  ⟨["grek", "greek"],
    .ofTable "
      bhWEBDCEBBEBBBBDBBBUBcLOQjnQFbYFEFdGBmIWCGCbMCGCIBBBBBBBbFCcBBPBOCGBTCDBJlJBcajEBbgnIdBRBd
      axRcS"⟩,
  ⟨["gujr", "gujarati"],
    .ofTable "dzLDBJBDBWBHBCBFCKBDBDCBPECMHH"⟩,
  ⟨["gong", "gunjalagondi"],
    .ofTable "eebWGBCBbLBCBGHK"⟩,
  ⟨["guru", "gurmukhi"],
    .ofTable "duNDBGECCWBHBCBCBCCBBFECCDDBHEBBHR"⟩,
  ⟨["gukh", "gurungkhema"],
    .ofTable "fdrScG"⟩,
  ⟨["hani", "han"],
    .ofTable "
      rpWbABdLMiGbVBBBZJOEblCjtOcMbfbKbhsIoCCeCbsiICMCccoKclfCbGgdUGiOCinQOlbLPxYdqWuWcfYhhZFgfG"⟩,
  ⟨["hang", "hangul"],
    .ofTable "glKjWllECjXdQeJbFcNbFbtaNbDyTqnSMXEbXpaIbFDGCGCGCD"⟩,
  ⟨["rohg", "hanifirohingya"],
    .ofTable "dxwQbOIK"⟩,
  ⟨["hano", "hanunoo"],
    .ofTable "itSV"⟩,
  ⟨["hatr", "hatran"],
    .ofTable "dwiATBCFF"⟩,
  ⟨["hebr", "hebrew"],
    .ofTable "ccVcDIbBEGdovWbABFBBBCBCBK"⟩,
  ⟨["hira", "hiragana"],
    .ofTable "shDdIGDfpeVlBSBbDDymVB"⟩,
  ⟨["armi", "imperialaramaic"],
    .ofTable "dwbWWBJ"⟩,
  ⟨["zinh", "inherited", "qaai"],
    .ofTable "
      bdOeIkRCrKLbABbcIEgoXbFtTDBNBHEBGBDChQcMuEChMbHftXEeDCczuJQQOblNBiSBgfABctcUbUCXuYDRICHbEE
      btlhIjG"⟩,
  ⟨["phli", "inscriptionalpahlavi"],
    .ofTable "dxgQTFI"⟩,
  ⟨["prti", "inscriptionalparthian"],
    .ofTable "dxfKWCI"⟩,
  ⟨["java", "javanese"],
    .ofTable "cmeYdACKEC"⟩,
  ⟨["kthi", "kaithi"],
    .ofTable "dzfCcPKB"⟩,
  ⟨["knda", "kannada"],
    .ofTable "etCNBDBXBKBFCJBDBEHCGCBECKBD"⟩,
  ⟨["kana", "katakana"],
    .ofTable "skVdMCDjGQiAbVBdKczhEKBbTcouCEBHBCBBlBDbYBOE"⟩,
  ⟨["kawi"],
    .ofTable "eerWRBbPDbD"⟩,
  ⟨["kali", "kayahli"],
    .ofTable "cmaAbUBB"⟩,
  ⟨["khar", "kharoshthi"],
    .ofTable "dwtCEBCFIBDBbDCDEKHJ"⟩,
  ⟨["kits", "khitansmallscript"],
    .ofTable "fjiIBkgXsCbPB"⟩,
  ⟨["khmr", "khmer"],
    .ofTable "ixKdQCKGKsSbG"⟩,
  ⟨["khoj", "khojki"],
    .ofTable "dztWSBbV"⟩,
  ⟨["sind", "khudawadi"],
    .ofTable "eaaQcHFK"⟩,
  ⟨["krai", "kiratrai"],
    .ofTable "fiiIcG"⟩,
  ⟨["laoo", "lao"],
    .ofTable "fmVCBBBFBYBBBXCFBBBHBKCE"⟩,
  ⟨["latn", "latin"],
    .ofTable "
      cNbAGbAbVBPBFXBbFBrHbNFjxBbMGbXFEFNBcScNjWoFBNBQNfLCGBbBBRbPecTbGbulMdYDcPCCBBBIVObfKbRBJB
      EbedQHboKbAGbAdcFGBbQBJddnPbFGG"⟩,
  ⟨["lepc", "lepcha"],
    .ofTable "kpScEDPDD"⟩,
  ⟨["limb", "limbu"],
    .ofTable "jmEbFBMEMEBDM"⟩,
  ⟨["lina", "lineara"],
    .ofTable "dvfSlZJWKI"⟩,
  ⟨["linb", "linearb"],
    .ofTable "dsyQMBbABTBCBPCObIeT"⟩,
  ⟨["lisu"],
    .ofTable "ckkUbWbumAB"⟩,
  ⟨["lyci", "lycian"],
    .ofTable "dtxGbD"⟩,
  ⟨["lydi", "lydian"],
    .ofTable "dwkMbAFB"⟩,
  ⟨["mahj", "mahajani"],
    .ofTable "dznCbN"⟩,
  ⟨["maka", "makasar"],
    .ofTable "eeqQZ"⟩,
  ⟨["mlym", "malayalam"],
    .ofTable "eyANBDBbZBDBGEQCbA"⟩,
  ⟨["mand", "mandaic"],
    .ofTable "ddGbCCB"⟩,
  ⟨["mani", "manichaean"],
    .ofTable "dxaMbNEM"⟩,
  ⟨["marc", "marchen"],
    .ofTable "edsQbGCWBO"⟩,
  ⟨["gonm", "masaramgondi"],
    .ofTable "edyEHBCBbSDBBCBJIK"⟩,
  ⟨["medf", "medefaidrin"],
    .ofTable "fisEdN"⟩,
  ⟨["mtei", "meeteimayek"],
    .ofTable "cmsMXhTbUCK"⟩,
  ⟨["mend", "mendekikakui"],
    .ofTable "hcuYhPCQ"⟩,
  ⟨["merc", "meroiticcursive"],
    .ofTable "dwpKYEUCbU"⟩,
  ⟨["mero", "meroitichieroglyphs"],
    .ofTable "dwoEbG"⟩,
  ⟨["plrd", "miao"],
    .ofTable "fizOcXEcFHR"⟩,
  ⟨["modi"],
    .ofTable "ebhGcRLK"⟩,
  ⟨["mong", "mongolian"],
    .ofTable "jcICCBBUGdLHbRdscBN"⟩,
  ⟨["mroo", "mro"],
    .ofTable "fheUbFBKEC"⟩,
  ⟨["mult", "multani"],
    .ofTable "dzyUHBBBEBPBL"⟩,
  ⟨["mymr", "myanmar"],
    .ofTable "gbOgEcgaYbFdTbGbpaMU"⟩,
  ⟨["nbat", "nabataean"],
    .ofTable "dweIbFIJ"⟩,
  ⟨["nagm", "nagmundari"],
    .ofTable "hbpObQ"⟩,
  ⟨["nand", "nandinagari"],
    .ofTable "ecqYICbUCL"⟩,
  ⟨["talu", "newtailue"],
    .ofTable "jrCbSEbAGLDC"⟩,
  ⟨["newa"],
    .ofTable "eanOdOBF"⟩,
  ⟨["nkoo", "nko"],
    .ofTable "cyIcHCD"⟩,
  ⟨["nshu", "nushu"],
    .ofTable "fjiFByvMpG"⟩,
  ⟨["hmnp", "nyiakengpuachuehmong"],
    .ofTable "haeAbTDOCKEC"⟩,
  ⟨["ogam", "ogham"],
    .ofTable "inObD"⟩,
  ⟨["olck", "olchiki"],
    .ofTable "ksUbW"⟩,
  ⟨["onao", "olonal"],
    .ofTable "hbzKbREB"⟩,
  ⟨["hung", "oldhungarian"],
    .ofTable "dxrSbZNbZHG"⟩,
  ⟨["ital", "olditalic"],
    .ofTable "ducEbKJD"⟩,
  ⟨["narb", "oldnortharabian"],
    .ofTable "dwyAbG"⟩,
  ⟨["perm", "oldpermic"],
    .ofTable "dufGbR"⟩,
  ⟨["xpeo", "oldpersian"],
    .ofTable "duiIbKEO"⟩,
  ⟨["sogo", "oldsogdian"],
    .ofTable "dyqIbO"⟩,
  ⟨["sarb", "oldsoutharabian"],
    .ofTable "dwwUbG"⟩,
  ⟨["orkh", "oldturkic"],
    .ofTable "dxmUcV"⟩,
  ⟨["ougr", "olduyghur"],
    .ofTable "dyuQbA"⟩,
  ⟨["orya", "oriya"],
    .ofTable "eeJDBICCCWBHBCBFCJCCCDHDECBFCS"⟩,
  ⟨["osge", "osage"],
    .ofTable "dusUbKEbK"⟩,
  ⟨["osma", "osmanya"],
    .ofTable "duqYbECK"⟩,
  ⟨["hmng", "pahawhhmong"],
    .ofTable "fhmEcSKKBHBVFT"⟩,
  ⟨["palm", "palmyrene"],
    .ofTable "dwdCbG"⟩,
  ⟨["pauc", "paucinhau"],
    .ofTable "edcAcF"⟩,
  ⟨["phag", "phagspa"],
    .ofTable "clsQcE"⟩,
  ⟨["phnx", "phoenician"],
    .ofTable "dwjGbCDB"⟩,
  ⟨["phlp", "psalterpahlavi"],
    .ofTable "dxhWSHEMH"⟩,
  ⟨["rjng", "rejang"],
    .ofTable "cmbWbKLB"⟩,
  ⟨["runr", "runic"],
    .ofTable "ioUcXDL"⟩,
  ⟨["samr", "samaritan"],
    .ofTable "daUbUCP"⟩,
  ⟨["saur", "saurashtra"],
    .ofTable "clvCcSIM"⟩,
  ⟨["shrd", "sharada"],
    .ofTable "dzoYdS"⟩,
  ⟨["shaw", "shavian"],
    .ofTable "dupCbW"⟩,
  ⟨["sidd", "siddham"],
    .ofTable "ebcIcCCbM"⟩,
  ⟨["sgnw", "signwriting"],
    .ofTable "gwtKzCPFBP"⟩,
  ⟨["sinh", "sinhala"],
    .ofTable "fcZDBSDYBJBBCHDBEGBBBIGKCDdulGU"⟩,
  ⟨["sogd", "sogdian"],
    .ofTable "dysEbQ"⟩,
  ⟨["sora", "sorasompeng"],
    .ofTable "dziEZHK"⟩,
  ⟨["soyo", "soyombo"],
    .ofTable "ecxSdF"⟩,
  ⟨["sund", "sundanese"],
    .ofTable "kkUcMjWI"⟩,
  ⟨["sunu", "sunuwar"],
    .ofTable "edlWbIOK"⟩,
  ⟨["sylo", "sylotinagri"],
    .ofTable "clqEbT"⟩,
  ⟨["syrc", "syriac"],
    .ofTable "cqYOBcICDkML"⟩,
  ⟨["tglg", "tagalog"],
    .ofTable "isMWJB"⟩,
  ⟨["tagb", "tagbanwa"],
    .ofTable "iwENBDBC"⟩,
  ⟨["tale", "taile"],
    .ofTable "jpGbECF"⟩,
  ⟨["lana", "taitham"],
    .ofTable "jxGcLBbDCLGKGO"⟩,
  ⟨["tavt", "taiviet"],
    .ofTable "cmoUcPYF"⟩,
  ⟨["takr", "takri"],
    .ofTable "ebmEcGGK"⟩,
  ⟨["taml", "tamil"],
    .ofTable "ejICBGDDBEDCBBBCDCDDDMEFDDBECBGBOVealHbYNB"⟩,
  ⟨["tnsa", "tangsa"],
    .ofTable "fhgQdBBK"⟩,
  ⟨["tang", "tangut"],
    .ofTable "fjiEBbFjcAIbdOtSJ"⟩,
  ⟨["telu", "telugu"],
    .ofTable "eoENBDBXBQCJBDBEHCBDCBCECKHJ"⟩,
  ⟨["thaa", "thaana"],
    .ofTable "cvWbY"⟩,
  ⟨["thai"],
    .ofTable "fhXcGFbC"⟩,
  ⟨["tibt", "tibetan"],
    .ofTable "frScUBbKEbNBbKBPBHEC"⟩,
  ⟨["tfng", "tifinagh"],
    .ofTable "rcYcEHCOB"⟩,
  ⟨["tirh", "tirhuta"],
    .ofTable "easMcUIK"⟩,
  ⟨["todr", "todhri"],
    .ofTable "dvdGcA"⟩,
  ⟨["toto"],
    .ofTable "hatKbF"⟩,
  ⟨["tutg", "tulutigalari"],
    .ofTable "eaiQKBBCBBbMBKBBCBBEBKBCIC"⟩,
  ⟨["ugar", "ugaritic"],
    .ofTable "duhCbEBB"⟩,
  ⟨["vaii", "vai"],
    .ofTable "ckmQlO"⟩,
  ⟨["vith", "vithkuqi"],
    .ofTable "dvaELBPBHBCBLBPBHBC"⟩,
  ⟨["wcho", "wancho"],
    .ofTable "havGcGFB"⟩,
  ⟨["wara", "warangciti"],
    .ofTable "echCdFMB"⟩,
  ⟨["yezi", "yezidi"],
    .ofTable "dylKbQBDCC"⟩,
  ⟨["yiii", "yi"],
    .ofTable "cipKbsVDcD"⟩,
  ⟨["zanb", "zanabazarsquare"],
    .ofTable "ecuQcU"⟩]

/-- The scripts with which other characters are used than those that belong to them. -/
private def usedInScripts : List NamedSet := [
  ⟨["adlm"],
    .ofTable "ciHBbGBjwOBfhHBglrIcYEKEC"⟩,
  ⟨["arab"],
    .ofTable "
      chCFBiHBbIdCbWjGbFBCFcXBbDivNBfhHBczrAeLQrDCcCHBbGQeIFBfFbmHbCeiEbFcPDcDEdglSEBbBBCBBCBBKB
      EBBBBGBEBBBBBBDBCBBCBBBBBBBBBBCBBCEBHBEBEBBBKBRFDBFBRcAC"⟩,
  ⟨["armn"],
    .ofTable "bdWBvGbMCbYCDdozJF"⟩,
  ⟨["avst"],
    .ofTable "hBBrfSCdfqCcCDH"⟩,
  ⟨["beng"],
    .ofTable "baYBcmUCRCbAEBICCCWBHBBDECJCCCEIBECBFCZhdHBBBCCBBIBIBCBEBCDcbaFB"⟩,
  ⟨["bopo"],
    .ofTable "bbJBBDNBQCrbXDEKBNKECBGBhNBJbReIbGczlTCkWF"⟩,
  ⟨["bugi"],
    .ofTable "jwAbCCCcckTB"⟩,
  ⟨["buhd"],
    .ofTable "iuNCJU"⟩,
  ⟨["cari"],
    .ofTable "hBBlzMBCBfgDBdclQbX"⟩,
  ⟨["aghb"],
    .ofTable "bdSBbSBbSBdtqNcALB"⟩,
  ⟨["cakm"],
    .ofTable "dtMKckEKdtfQcBBS"⟩,
  ⟨["cher"],
    .ofTable "bdODBBGCWCLCgfUdICGcfjEdC"⟩,
  ⟨["zyyy"],
    .ofTable "
      AcNbAGbAbVBMBCBFXBbFBrHDBKBBDBBJBBBGFFCUeWBGBBByNBiHBtWBcaUBpPEgdBMCbHBbFBKBCBHBLDLBPRbHcL
      bMBDCGBbBBRbPDEzQWLVbjSjWyECbGBeBtSXBYCKBEBBBbAqCBDBNBNBVBuJYbFBbXPMEgFKFdSbFBjtOcMbhsQbAd
      YDblOBOCbfhSKWVCMBTBEfRBBbGbAGbAGeXHBHKFpMNbZbTcynBjQGqUgAeMcIjMKbNCcKDRICHbEEcJiFUMUMdJbB
      HfFdHBcTBCCBCCCEBMBBBHBcNBECIBHBbCBEBFBBDHBnCClGCbYhtHcQcYcJbbEbSEdWMPCPBPBbLKgScEbABCNbSE
      JXGfYblWERDNDePEdRGMEBPMEcEIKGbOIbECMECcKnCMOCNDKFcEHPCLGJHfRBdYbsuxBBbEdS"⟩,
  ⟨["copt"],
    .ofTable "hBBwMBDCBBeECeEOpjKeMFHkTBdcpCbC"⟩,
  ⟨["cprt"],
    .ofTable "dtiMDEbTDJcoMGCBBbSBCDBCB"⟩,
  ⟨["cpmn"],
    .ofTable "dtiMCrqKdV"⟩,
  ⟨["cyrl"],
    .ofTable "baYBcPDBBBBBBCBFBjElSivOLgEBcYBeXBgaPbGcPBbtlKdSbheCCdhpGcKbHB"⟩,
  ⟨["deva"],
    .ofTable "baYBcjRdFCbRhiEbNBCbnABbzfRKgKbGbreMK"⟩,
  ⟨["dogr"],
    .ofTable "doMMcidCKbqiOcI"⟩,
  ⟨["dupl"],
    .ofTable "hBBwTCBBYCqiHBfuqLeDFNDJHKCI"⟩,
  ⟨["elba"],
    .ofTable "hBBwRBdtsCbO"⟩,
  ⟨["ethi"],
    .ofTable "
      beCBfrDcVBECHBBBECbPBECbHBECHBBBECPBcFBECcPCbGDbAjvAXJHBHBHBHBHBHBHBHbvkCGCGCGJHBHepyFHBEB
      CBP"⟩,
  ⟨["gara"],
    .ofTable "chOBOBDBdvqUbMDbDIC"⟩,
  ⟨["geor"],
    .ofTable "hBBbvLBefEbMBBFBCbWejWbRCDbjMBeuNbMBBFBjZB"⟩,
  ⟨["glag"],
    .ofTable "hBBwPBBBoSBCBjXBeiRBfvIBekRdSsPBbtnFBeotKHBRCHBCBF"⟩,
  ⟨["goth"],
    .ofTable "hBBwQCCBbOBdsyObB"⟩,
  ⟨["gran"],
    .ofTable "dnTCRCyQOgkABBCbEDDCbnABdnrJEBICCCWBHBCBFBKCCCDCBGBFHCHDFerRCBB"⟩,
  ⟨["grek"],
    .ofTable "
      hBBwMCCBBBBBKBbUBCBbQICEBBEBBBBDBBBUBcLOQjnQFbYFEFdGDmGWCGCbMCGCIBBBBBBBbFCcBBPBOCGBTCDBJd
      QBhSBcajEBbgnIdBRBdaxRcS"⟩,
  ⟨["gujr"],
    .ofTable "dnTCRCkXDBJBDBWBHBCBFCKBDBDCBPECMHHchnSK"⟩,
  ⟨["gong"],
    .ofTable "hBBdhKCeanIGBCBbLBCBGHK"⟩,
  ⟨["guru"],
    .ofTable "dnTCRCfZDBGECCWBHBCBCBCCBBFECCDDBHEBBHRchsZK"⟩,
  ⟨["gukh"],
    .ofTable "doNBfadEcG"⟩,
  ⟨["hani"],
    .ofTable "
      hBBriUbABdLMiGbAQBDBNBNBNCBGJhFBfSQbGbMJBbWbOcEbXPMbZBdKZKFdSbFBjtOcMbfbKcqYIbfbCoCCeCbhRC
      kWFbqpOCMCblrASlrYCfeSclfCbGgdUGiOCinQOlbLPxYdqWuWcfYhhZFgfG"⟩,
  ⟨["hang"],
    .ofTable "glKjWljLDEKBNODGBhNBcBdQeJbFcNbFbtaNbDyTqnSMXEbXomZCkWFcGbFDGCGCGCD"⟩,
  ⟨["rohg"],
    .ofTable "chOBOBDBbGBfRBdvhJbOIK"⟩,
  ⟨["hano"],
    .ofTable "itSX"⟩,
  ⟨["hebr"],
    .ofTable "bdVCyYcDIbBEGdovWbABFBBBCBCBK"⟩,
  ⟨["hira"],
    .ofTable "seRDEKBNQGBBECDdICIdMCcztGCkWFKBbTCcouRlBSBbDDymVB"⟩,
  ⟨["zinh"],
    .ofTable "
      beDBCBBPDHCBCQBCBSBFBEcgMCgoXbFbdBcCBBBFuEChMbGdfsQQQOblNBczqObUCXuYDRICHbEEbtlhIjG"⟩,
  ⟨["java"],
    .ofTable "cmeYdABLEC"⟩,
  ⟨["kthi"],
    .ofTable "doOKnxXBbufEKbnmScPKB"⟩,
  ⟨["knda"],
    .ofTable "dnTCRCbeONBDBXBKBFCJBDBEHCGCBECKBDgaEBBCGBXBBBcasXG"⟩,
  ⟨["kana"],
    .ofTable "bdTBbDBqzTDEKBNQGBBECdNEDdSjGQiAbVBdKcywBCkWcLcouAEBHBCBBlBDbYBOE"⟩,
  ⟨["kali"],
    .ofTable "cmaAbW"⟩,
  ⟨["khoj"],
    .ofTable "edIKchoIKbobMSBbV"⟩,
  ⟨["sind"],
    .ofTable "doMCcidMKboiGcHFK"⟩,
  ⟨["latn"],
    .ofTable "
      cNbAGbAbVBMBCBFXBbFBrHDBKBBDBBJBBBGFbBPBCBBPDHCBCbMBFBENkRCbvECcxKBeoIbMGbXFEFNBcScFBHjWlR
      BcNBNBQNdFBcFCGBbBBRbPecTbGpRBbtuMIbAdYDcPCCBBBIVOlQBtTbRBJBEbedQHboKbAGbAdcFGBbQBJddnPbFG
      G"⟩,
  ⟨["limb"],
    .ofTable "doNBfxQbFBMEMEBDM"⟩,
  ⟨["lina"],
    .ofTable "dtiTbTbvGlZJWKI"⟩,
  ⟨["linb"],
    .ofTable "dsyQMBbABTBCBPCObIeTFDEbTDJ"⟩,
  ⟨["lisu"],
    .ofTable "baYBQBrdKCbsfSbWbumAB"⟩,
  ⟨["lyci"],
    .ofTable "mgOBdhqRbD"⟩,
  ⟨["lydi"],
    .ofTable "hBBrfTBdexQbAFB"⟩,
  ⟨["mahj"],
    .ofTable "hBBdhKMcidCKbnuSbN"⟩,
  ⟨["mlym"],
    .ofTable "dnTCRCbjMNBDBbZBDBGEQCbAfvEBXBcasZD"⟩,
  ⟨["mand"],
    .ofTable "cjOBtRbCCB"⟩,
  ⟨["mani"],
    .ofTable "cjOBduqXbNEM"⟩,
  ⟨["gonm"],
    .ofTable "doMCeajQHBCBbSDBBCBJIK"⟩,
  ⟨["mero"],
    .ofTable "mgRBdkhMbG"⟩,
  ⟨["modi"],
    .ofTable "clsAKbpoWcRLK"⟩,
  ⟨["mong"],
    .ofTable "jcIbAGdLHbRcwABfzTCFEdjfWN"⟩,
  ⟨["mult"],
    .ofTable "dyKKdwaAHBBBEBPBL"⟩,
  ⟨["mymr"],
    .ofTable "gbOgEcfuCBgVbFdTbGbpaMU"⟩,
  ⟨["nand"],
    .ofTable "dnTBSCbiMKgbHBIBHBcasRGbqySICbUCL"⟩,
  ⟨["newa"],
    .ofTable "dnTChkCBBCJBGBBBBBdpoSdOBF"⟩,
  ⟨["nkoo"],
    .ofTable "chOBOBDBqAcHCDdowSC"⟩,
  ⟨["onao"],
    .ofTable "doMCgykWbREB"⟩,
  ⟨["hung"],
    .ofTable "mgOBCBfgDBPBdgeGbZNbZHG"⟩,
  ⟨["perm"],
    .ofTable "hBBwMBFDKBoDBdsmUbR"⟩,
  ⟨["orkh"],
    .ofTable "mgOBfgFBdfzZcV"⟩,
  ⟨["ougr"],
    .ofTable "cjOBdusVBbsFbA"⟩,
  ⟨["orya"],
    .ofTable "dnTCRCpVDBICCCWBHBCBFCJCCCDHDECBFCSgpEBXB"⟩,
  ⟨["osge"],
    .ofTable "bdPBCBGBcYBdtlVbKEbK"⟩,
  ⟨["phag"],
    .ofTable "jcKCBBdcJBfzUBbtnXcE"⟩,
  ⟨["phlp"],
    .ofTable "cjOBduyHSHEMH"⟩,
  ⟨["runr"],
    .ofTable "ioUdL"⟩,
  ⟨["samr"],
    .ofTable "daUbUCPojQB"⟩,
  ⟨["shrd"],
    .ofTable "dnTBhkFBBBCCCBJBCBcatEGCBbnwPdS"⟩,
  ⟨["shaw"],
    .ofTable "hBBduiAbW"⟩,
  ⟨["sinh"],
    .ofTable "doMCboLDBSDYBJBBCHDBEGBBBIGKCDfrPBdotQU"⟩,
  ⟨["sogd"],
    .ofTable "cjOBdwiPbQ"⟩,
  ⟨["sunu"],
    .ofTable "bdOCBBJBCBbCBDBecgKbIOK"⟩,
  ⟨["sylo"],
    .ofTable "doMCeYKchwIbT"⟩,
  ⟨["syrc"],
    .ofTable "bdRCCCBBYDHCBCbcCBOCCBbGBKLbABfNOBcICDkMLieFBBB"⟩,
  ⟨["tglg"],
    .ofTable "isMWJBVC"⟩,
  ⟨["tagb"],
    .ofTable "iuNCbPNBDBC"⟩,
  ⟨["tale"],
    .ofTable "bdOCFCDBezZKdkWbECF"⟩,
  ⟨["takr"],
    .ofTable "doMCcidMKbptUcGGK"⟩,
  ⟨["taml"],
    .ofTable "dnTCRCuUCBGDDBEDCBBBCDCDDDMEFDDBECBGBOVgkDBcbbKBboeFBBBcDCetFbYNB"⟩,
  ⟨["tang"],
    .ofTable "seAQtBBeqkMBbFjcAIbdOtSJ"⟩,
  ⟨["telu"],
    .ofTable "dnTCRCzQNBDBXBQCJBDBEHCBDCBCECKHJgeVCBBBBXB"⟩,
  ⟨["thaa"],
    .ofTable "chOBOCCBcMKkSbYdpgQBKB"⟩,
  ⟨["thai"],
    .ofTable "baYBbABbRBbTBecLcGFbC"⟩,
  ⟨["tibt"],
    .ofTable "frScUBbKEbNBbKBPBHECmeVE"⟩,
  ⟨["tfng"],
    .ofTable "bdQBBBBEZBpyAcEHCOB"⟩,
  ⟨["tirh"],
    .ofTable "dnTCRChjJBMBPBcasZKbpaCcUIK"⟩,
  ⟨["todr"],
    .ofTable "bdPBCBCBJBBBcWBdtwBcA"⟩,
  ⟨["toto"],
    .ofTable "baYBgzsLbF"⟩,
  ⟨["tutg"],
    .ofTable "exAKgbQBBBcasXGhFBbojEKBBCBBbMBKBBCBBEBKBCIC"⟩,
  ⟨["yezi"],
    .ofTable "chOBOBDBcMKdwaGbQBDCC"⟩,
  ⟨["yiii"],
    .ofTable "seRCFKCIiPBbqbCbsVDcDbiiCF"⟩]

/-- The characters that are used in a script. -/
def scriptExtension? (name : String) : Option CharSet := do
  let script ← scripts.find? fun s => s.names.contains name
  return (NamedSet.find? (script.names.headD "") usedInScripts).getD script.set

end Linkage
