import Linkage.Text.Category

/-! Properties that characters have or lack. -/
namespace Linkage

/-- The properties that do not follow from others and the categories. -/
def basicProperties : List NamedSet := [
  ⟨["ahex", "asciihexdigit"],
    .ofTable "bWKHGbAG"⟩,
  ⟨["bidic", "bidicontrol"],
    .ofTable "ciEBjvLCbAFcDE"⟩,
  ⟨["bidim", "bidimirrored"],
    .ofTable "
      bOCSBBBbCBBBbDBBBbTBPBfmSEcuNCdqQCKCcCCOCgVBhKEDGDBDCDEBEBBBBEJFBBSFEJCBBBIBbGCEFBJCCTFCJF
      CCEYCQIEUCHCbpTOcWBCEBCBDFEFDDOpNWCGBOIBHGDBEFBCCFEBBDCCKGCCMTBECBBBCBBEFCGDYCLCEEBCCCEbRC
      IBbOFBBBDFFDEBDFBBjWBtVEDCBCOCCKbRIqLKCIdacRGFCgGCSBBBbCBBBbDBBBBCBCddpNBcFBcFBcFBcFB"⟩,
  ⟨["ci", "caseignorable"],
    .ofTable "
      bNBGBLBbJBBBcTBEBBBEBCCtJhKECEBJCBBjRHhZBFBbXbTBBBCBCBBbSBLGKLBBbJBKVQBdXIBKBEbHBBBbEbBdNL
      cGLEBCBYYbRDbSBHCFJbPcGcDBBBEIEBDHKCNBPBcGBEEIBUCbABCCcFBECECCDDBbECDBLCcFBEFBCEBUCWGBBcGB
      CBBEIBHCLCbEBcJBMBbYBDBcDBBDFDBEHCLCbDBcGBCBGBFCUCbCCcFCEEIBUCbDBcUBHDBBdMBCHLJdUBCJJBBHcV
      CbBBBBBBcDOBFBCFLBbKJBdYEBGBCCCZCEDQENBCCGBPBdQBxKDbkKDbDCbECbECcMCBHIBCLDBFBbTFbZBcNCbIBe
      ODECJBGDiLCCBcGBBHBBBBCIGKCBbNBIbFbXEbWBBFBBFBbOJMCbGECCBDcEBBCDBBDcGICCcMGdEDBNBHEBGBDCbY
      cLNBbIdXrDBBDLDNDNDNCMFICKBCBCFbXFBKBBNBQNbZbHejRCeJDeVBPBdSbGbVBsBBbKEDFFBdPGdPDbqbUBbwCG
      kKBdUEBKBBbCEdCCObIdABXDdZDDCIBDBEBZCFBfVCbASNBbMIZLbUDbWBCECCRBVCcOGCCCCMBIBbJBLBbZBBDCCF
      CBBbBBOCFCBBdWFJDeRBCBEBbdzSBfRRwBQDBMQbIBCBgNBHBGBLBbJBBBbVBbTCcPBVDtTBiSBfTFbnPGBbQBJwKD
      BCFEbODEBgJCwBEbMBbAFBBmDCdBEcSLbXEeTBcCPbPBCCKDbXECCCBEBKBbYDbKFBIcKBMCcAJKECBdRDCBBCGBCB
      gBBDIVCcFCDBbLHDFcSGNBBBBBOCdHICDBBXBdGGBBECBCjEEGCBCbBCdHICBBCeCBBBCGBBdXBBBCEBFjZJBCjWCB
      BEBfOECCEBbGKbOGCEIBJGCDbUNBCpQHBGBBdEWCHBCBCeSGDBBCBHBBcUCDBBBnJCLCcAFFBBBXBhxDRGPqyYMDDd
      sAFcHHJEtODbOCsOBcLRcMCBCygPEBHBCeuGCBEgyUbUCXuYDJQCHbEEfSDcyDcDEbYIBOBWFBPcaIHBRCHBCBFFcK
      bHBgEOoEBcJEtNFjUCbcIHeFIebFFbsxxPBbEdSeYjG"⟩,
  ⟨["cwcf", "changeswhencasefolded"],
    .ofTable "
      cNbAdMBKXBIbGBBBBBBBBBBBBBBBBBBBBBBBBBBBBBBBBBBBBBBBBBBBBBBBBBBBBBBBCBBBBBBBBBBBBBBBBCBBBB
      BBBBBBBBBBBBBBBBBBBBBBBBBBBBBBBBBBBBBBBBBCBBBBBBBCBBBCBDCEBCBDDCBCBBBBBCBBCBBCBDBBBCDBHCBC
      BCBBBBBBBBBBBBBBBBCBBBBBBBBBBBBBBBBBCCBBBDBBBBBBBBBBBBBBBBBBBBBBBBBBBBBBBBBBBBBBBBBBBBBBBB
      BBBBBBBBBBHCBCCBBEBBBBBBBBjMBbQBBBDBIBGBBDBBBCBRBJWBMDDCBBBBBBBBBBBBBBBBBBBBBBBBBCCCBBBCCb
      ZbWBBBBBBBBBBBBBBBBBBBBBBBBBBBBBBBBBJBBBBBBBBBBBBBBBBBBBBBBBBBBBBBBBBBBBBBBBBBBBBBBBBBBBBB
      BCBBBBBBBBBBBBCBBBBBBBBBBBBBBBBBBBBBBBBBBBBBBBBBBBBBBBBBBBBBBBBBBBBBBBBBBBBBBBBBBBBBBBBBBB
      BBBBBBBBBBBBBBBBBBBBCbMbWBefGbMBBFBbfEGdfUKGbRCDmIBBBBBBBBBBBBBBBBBBBBBBBBBBBBBBBBBBBBBBBB
      BBBBBBBBBBBBBBBBBBBBBBBBBBBBBBBBBBBBBBBBBBBBBBBBBBBBBBBBBBBBBBBBBBBBBBBBBBBBBBBBBBBBBBBBBB
      BBBBBBBBBBBBBBBBBBBFCCBBBBBBBBBBBBBBBBBBBBBBBBBBBBBBBBBBBBBBBBBBBBBBBBBBBBBBBBBBBBBBBBBBBB
      BBBBBBBBBBBBBBBBBBBBBBBBBBBBBJIIGKIIIIGLBBBBBBBIIQbWCDCGFDCGLEMFFDCGlLBDCGBbTQTBbfMbAcsUbW
      bWBBDCBBBBBBEBBCBIDBBBBBBBBBBBBBBBBBBBBBBBBBBBBBBBBBBBBBBBBBBBBBBBBBBBBBBBBBBBBBBBBBBBBBBB
      BBBBBBBBBBBBBBBBBBBBBBBBBBBIBBBEBbtyJBBBBBBBBBBBBBBBBBBBBBBBBBBBBBBBBBBBBBBBBBBBBBTBBBBBBB
      BBBBBBBBBBBBBBBBBBBBfFBBBBBBBBBBBBBDBBBBBBBBBBBBBBBBBBBBBBBBBBBBBBBBBBBBBBBBBBBBBBBBBBBBBB
      BBBBBBBKBBBBCBBBBBBBBEBBBCBBBDBBBBBBBBBBBBBBBBBBBBFBFBBBBBBBBBBBBBBBEBBBCDBFBBBBBBBYBbiGdC
      beaIHMFbnTbAbuZbOfGbKgALBPBHBCcqCbZgBWegObGbgjWbGbulKbI"⟩,
  ⟨["cwcm", "changeswhencasemapped"],
    .ofTable "
      cNbAGbAcGBKXBbFBcMBdGBbCCOCCBBEdPBSGbBBCBBBCDCBEBFCBBCCBHBCBBCDGFBKCgKBbQECCDDBBGBBDBBBUBb
      VDbHBFBfDIgKBbMKbNefGbMBBFBCbRCDzWdICGdfULFbRCDhDBDBQBeJgACBBeOCGCbMCGCIBBBBBBBbFCcBBHBBDD
      BHDECGENFDBHlLBDCGBbBBRbGDCbfLcAcrUeJBCBCHdYHEDCMbMBBFBbtwCbUSbCfEOCcKJPDDCFBZBbECCEHYCbhC
      BbCdCbeaIHMFbnTbAGbAbtTdCdSbKEbKeMLBPBHBCBLBPBHBCcoPbZNbZdPWKWefIcMbgiQcMbukEcQ"⟩,
  ⟨["cwl", "changeswhenlowercased"],
    .ofTable "
      cNbAdXXBHbHBBBBBBBBBBBBBBBBBBBBBBBBBBBBBBBBBBBBBBBBBBBBBBBBBBBBBBBCBBBBBBBBBBBBBBBCBBBBBBB
      BBBBBBBBBBBBBBBBBBBBBBBBBBBBBBBBBBBBBBBCBBBBDCBBBCBDCEBCBDDCBCBBBBBCBBCBBCBDBBBCDBHCBCBCBB
      BBBBBBBBBBBBBBCBBBBBBBBBBBBBBBBBCCBBBDBBBBBBBBBBBBBBBBBBBBBBBBBBBBBBBBBBBBBBBBBBBBBBBBBBBB
      BBBBBBHCBCCBBEBBBBBBBBlDBBBDBIBGBBDBBBCBRBJbJBIBBBBBBBBBBBBBBBBBBBBBBBFBCBBCCbZbWBBBBBBBBB
      BBBBBBBBBBBBBBBBBBBBBBBBJBBBBBBBBBBBBBBBBBBBBBBBBBBBBBBBBBBBBBBBBBBBBBBBBBBBBBBCBBBBBBBBBB
      BBCBBBBBBBBBBBBBBBBBBBBBBBBBBBBBBBBBBBBBBBBBBBBBBBBBBBBBBBBBBBBBBBBBBBBBBBBBBBBBBBBBBBBBBB
      BBBBBBBBCbMehDbMBBFBbbUdIdgLBGbRCDmIBBBBBBBBBBBBBBBBBBBBBBBBBBBBBBBBBBBBBBBBBBBBBBBBBBBBBB
      BBBBBBBBBBBBBBBBBBBBBBBBBBBBBBBBBBBBBBBBBBBBBBBBBBBBBBBBBBBBBBBBBBBBBBBBBBBBBBBBBBBBBBBBBB
      BBBBBJBBBBBBBBBBBBBBBBBBBBBBBBBBBBBBBBBBBBBBBBBBBBBBBBBBBBBBBBBBBBBBBBBBBBBBBBBBBBBBBBBBBB
      BBBBBBBBBBBBBJIIGKIIIIGLBBBBBBBIIYIIIIIIFLFLEMFLFlLBDCGBbTQTBbfMbAcsUbWbWBBDCBBBBBBEBBCBID
      BBBBBBBBBBBBBBBBBBBBBBBBBBBBBBBBBBBBBBBBBBBBBBBBBBBBBBBBBBBBBBBBBBBBBBBBBBBBBBBBBBBBBBBBBB
      BBBBBBBBIBBBEBbtyJBBBBBBBBBBBBBBBBBBBBBBBBBBBBBBBBBBBBBBBBBBBBBTBBBBBBBBBBBBBBBBBBBBBBBBBB
      BfFBBBBBBBBBBBBBDBBBBBBBBBBBBBBBBBBBBBBBBBBBBBBBBBBBBBBBBBBBBBBBBBBBBBBBBBBBBBKBBBBCBBBBBB
      BBEBBBCBBBDBBBBBBBBBBBBBBBBBBBBFBFBBBBBBBBBBBBBBBEBBBCDBFBBBBBBBYBbhaHbAbuZbOfGbKgALBPBHBC
      cqCbZgBWegObGbgjWbGbulKbI"⟩,
  ⟨["cwt", "changeswhentitlecased"],
    .ofTable "
      dTbAcGBbPYBIBBBBBBBBBBBBBBBBBBBBBBBBBBBBBBBBBBBBBBBBBBBBBBBBBBBBBBBBCBBBBBBBBBBBBBBCBBBBBB
      BBBBBBBBBBBBBBBBBBBBBBBBBBBBBBBBBBBBBBBBCBBBBDCBBBCBDBFBCBDDCBCBBBBBCBEBCBDBBBCBDBBBEBBCBC
      BBBBBBBBBBBBBBBBBCBBBBBBBBBBBBBBBBBDBBBBDBBBBBBBBBBBBBBBBBBBBBBBBBBBBBBBBBBBBBBBDBBBBBBBBB
      BBBBBBBBIBCCBBEBBBBBBBBGBCBBBCDCBEBFCBBCCBHBCBBCDGFBKCgKBbRBBBDBDDSBbBbJBCDDBBBBBBBBBBBBBB
      BBBBBBBBBFBBCBCBcAbWBBBBBBBBBBBBBBBBBBBBBBBBBBBBBBBBBBJBBBBBBBBBBBBBBBBBBBBBBBBBBBBBBBBBBB
      BBBBBBBBBBBBBBBBBBCBBBBBBBBBBBBCBBBBBBBBBBBBBBBBBBBBBBBBBBBBBBBBBBBBBBBBBBBBBBBBBBBBBBBBBB
      BBBBBBBBBBBBBBBBBBBBBBBBBBBBBBBBBBBBBBbXbNfmEGdfUJBBjEBDBQBeKBBBBBBBBBBBBBBBBBBBBBBBBBBBBB
      BBBBBBBBBBBBBBBBBBBBBBBBBBBBBBBBBBBBBBBBBBBBBBBBBBBBBBBBBBBBBBBBBBBBBBBBBBBBBBBBBBBBBBBBBB
      BBBBBBBBBBBBBBBBBBBBBBBBBBBBBHFBBBBBBBBBBBBBBBBBBBBBBBBBBBBBBBBBBBBBBBBBBBBBBBBBBBBBBBBBBB
      BBBBBBBBBBBBBBBBBBBBBBBBBBBBBBBBBBBJIGKIIIIGKIIIIOCIIIIIIFBCGBDDBCIECCIIKDBCnEBbHQEBbgLbAc
      tQbWBBDCBBBBBBGBCBKBBBBBBBBBBBBBBBBBBBBBBBBBBBBBBBBBBBBBBBBBBBBBBBBBBBBBBBBBBBBBBBBBBBBBBB
      BBBBBBBBBBBBBBBBBBBBBBBBBBBBIBBBEBMbMBBFBbtwDBBBBBBBBBBBBBBBBBBBBBBBBBBBBBBBBBBBBBBBBBBBBB
      TBBBBBBBBBBBBBBBBBBBBBBBBBBBfFBBBBBBBBBBBBBDBBBBBBBBBBBBBBBBBBBBBBBBBBBBBBBBBBBBBBBBBBBBBB
      BBBBBBBBBBBBBBBKBBBCBBBBBBBBBEBEBBCCBBBBBBBBBBBBBBBBBBBLBBBBBBBBBBBBBBBEBBBCBDBFBBBBBbABbh
      CBbCdCbeaIHMFboZbAbvHbOfGbKfZLBPBHBCcrBbZeVWegObGbgjWbGbulMbI"⟩,
  ⟨["cwu", "changeswhenuppercased"],
    .ofTable "
      dTbAcGBbPYBIBBBBBBBBBBBBBBBBBBBBBBBBBBBBBBBBBBBBBBBBBBBBBBBBBBBBBBBBCBBBBBBBBBBBBBBCBBBBBB
      BBBBBBBBBBBBBBBBBBBBBBBBBBBBBBBBBBBBBBBBCBBBBDCBBBCBDBFBCBDDCBCBBBBBCBEBCBDBBBCBDBBBFCBCBC
      BBBBBBBBBBBBBBBCBBBBBBBBBBBBBBBBBCBCBBDBBBBBBBBBBBBBBBBBBBBBBBBBBBBBBBBBBBBBBBDBBBBBBBBBBB
      BBBBBBIBCCBBEBBBBBBBBGBCBBBCDCBEBFCBBCCBHBCBBCDGFBKCgKBbRBBBDBDDSBbBbJBCDDBBBBBBBBBBBBBBBB
      BBBBBBBFBBCBCBcAbWBBBBBBBBBBBBBBBBBBBBBBBBBBBBBBBBBBJBBBBBBBBBBBBBBBBBBBBBBBBBBBBBBBBBBBBB
      BBBBBBBBBBBBBBBBCBBBBBBBBBBBBCBBBBBBBBBBBBBBBBBBBBBBBBBBBBBBBBBBBBBBBBBBBBBBBBBBBBBBBBBBBB
      BBBBBBBBBBBBBBBBBBBBBBBBBBBBBBBBBBBBbXbNehCbRCDbdGGdfUJBBjEBDBQBeKBBBBBBBBBBBBBBBBBBBBBBBB
      BBBBBBBBBBBBBBBBBBBBBBBBBBBBBBBBBBBBBBBBBBBBBBBBBBBBBBBBBBBBBBBBBBBBBBBBBBBBBBBBBBBBBBBBBB
      BBBBBBBBBBBBBBBBBBBBBBBBBBBBBBBBBBHFBBBBBBBBBBBBBBBBBBBBBBBBBBBBBBBBBBBBBBBBBBBBBBBBBBBBBB
      BBBBBBBBBBBBBBBBBBBBBBBBBBBBBBBBBBBBBBBBJIGKIIIIGKIIIIOCcBBCEBBBDDBCEBDECCIIKDBCEBmZBbHQEB
      bgLbActQbWBBDCBBBBBBGBCBKBBBBBBBBBBBBBBBBBBBBBBBBBBBBBBBBBBBBBBBBBBBBBBBBBBBBBBBBBBBBBBBBB
      BBBBBBBBBBBBBBBBBBBBBBBBBBBBBBBBBBIBBBEBMbMBBFBbtwDBBBBBBBBBBBBBBBBBBBBBBBBBBBBBBBBBBBBBBB
      BBBBBBTBBBBBBBBBBBBBBBBBBBBBBBBBBBfFBBBBBBBBBBBBBDBBBBBBBBBBBBBBBBBBBBBBBBBBBBBBBBBBBBBBBB
      BBBBBBBBBBBBBBBBBBBBBKBBBCBBBBBBBBBEBEBBCCBBBBBBBBBBBBBBBBBBBLBBBBBBBBBBBBBBBEBBBCBDBFBBBB
      BbABbhCBbCdCbeaIHMFboZbAbvHbOfGbKfZLBPBHBCcrBbZeVWegObGbgjWbGbulMbI"⟩,
  ⟨["dash"],
    .ofTable "bTBcaUBbZBfkJBbnPBdbDGcJBbNBPBpABeoIBCBbFCEBbCBrEBTBeHBczwACbLBKBgNBflOBmGB"⟩,
  ⟨["dep", "deprecated"],
    .ofTable "mRBbyVBdkTBBBdcJCdiJGbaVCbzryKB"⟩,
  ⟨["dia", "diacritic"],
    .ofTable "
      dQBBBcTBGBEBCCtJgDBIFGRCEBJCjTFiBBcDbTBBBCBCBBfBIECfECECDDcPbBdNLcGLbICeWIbPKQbCcJBQBDEbCB
      cWBQBeGBQBeGBQBbVDcIBQBHBePBeGBQBeGBQBeFCQBeUBeHBMGBBeDBNFcXCbBBBBBBECcODBCcKBeIBBCbOCEFZH
      BBKCbbDDbkMCbEBfSLJBnJDlGBUICBbWPCLeABPBbMJcCCcGBLCcOCcMGdEZEBGBCDbYcLbWbKFMbLLrDBBDLDNDND
      NCexKDmFBtMGeBEdRBbsmKBMCBBbCCdECObIdYDeFCMBbLBfVBbBScFEbKBdRBMBbKBfTDcNEbZBdWFJDeYCbdzSBb
      dPQkKBBBbVBbTCcPBbdKBbtNGBbQBJyNDEBgJCvZGbMBbAFpJDcSLbXEhKBbPBcUCeQCcKBcYBJDeACgWCdCCQBYHD
      FdLDBCNCdRBDBeTCjRCeWBeOCeLBkJCjYCEBgABdFBSBdDBqFBjYBBCdDBqJCXBhyAPqzPBdsAFcHHvSCvARdCCygC
      EBHBCltHbUCXuYDDGIICHbEEfmWcKhMHoLBcJEbdMCbcIHeFDBD"⟩,
  ⟨["emoji"],
    .ofTable "
      bJBGBFKeHBEBlyRBMBiIBWBdMGPCoDCMBgKBZLEDhRBiXCKBJBcGEBFJBCBCCCBEBCBBCCBDBDCIDFBBBFMLCCBBCB
      BSBCCSGBBBCDCFBCCECLCFCCBFCBBBCUCFGBECBEBCBCGBBCBBBBBGBDBGBKCPBCBEBBBEDBBLCbWDJBOBOBoICrVD
      TCbZBEBbvUBMBxDBBBgmrQBhUBgECMCOBCKcXbABCXBUBCJVCgSbICeICCBDCdFCDBkDBcLLGBYHCCIMBCECBECNCC
      BICJBFDMDIDCBBBEBGBDBGdIbWcSFICDEKDBBCDBCKiTMEBkXbVBKBhDeINDKFcEHPCLGJ"⟩,
  ⟨["ecomp", "emojicomponent"],
    .ofTable "bJBGBFKmbJBiFBdftRBdoiWbAtNFceAEbsvuQdS"⟩,
  ⟨["emod", "emojimodifier"],
    .ofTable "hhiXF"⟩,
  ⟨["ebase", "emojimodifierbase"],
    .ofTable "
      olHBiLBQEgsjVBcIDCBCDeNCCLVTDBEDBDHBBBYBhTCEBVBECgSDDFdFBQDJBLBwDBCBIIGBJKCDcEBcJCBCBBRDBN
      iVDbQJ"⟩,
  ⟨["epres", "emojipresentation"],
    .ofTable "
      nhQChXEDBCBuBCVCbYMbRBTBNBICRCFCIBFBVBHCBBEBCBHBECbCBbJBBBEDBBcJDYBOBbhBCbZBEBgplEBhUBhIBC
      KcXbABBYBUBCFBDVCgSbHMJBcSBWMbREFMRDBDcTBBBhFCcLNEBYSBbACNBdIdHbWcSGBDDCDEELCHJiTMEBkXbVBK
      BhDeINDKFcEHPCLGJ"⟩,
  ⟨["extpict", "extendedpictographic"],
    .ofTable "
      gNBEBlyRBMBiIBWBdMGPCoDCMBdRBcSBZLEDhRBiXCKBJBcGEBGBMBeKKeOCLBBBBGBDBGBKCPBCBEBBBEDBBLFbTD
      JBOBOBoICrVDTCbZBEBbvUBMBxDBBBgmrMjWNDbFBcIGMCOBCKScFbBPKBUBCJBEJqSFmGIkGbWeYeMMdHbRMEcEIK
      GbOIbEdEMbVBKBqZjWbnI"⟩,
  ⟨["ext", "extender"],
    .ofTable "
      hBBuQCbhUBqZByGBfHBdLBbcYBeXBdnFBcEBxNBpIBcQBhkJBbRFdZCdPDbqbUBcgSBblABWBfHBeEBVCbfzVBdbKC
      cfBBbBBEBbvBBlHBeMCtEDbvJBbeoFCbtKCBBbqyACbuFBbgUD"⟩,
  ⟨["grlink", "graphemelink"],
    .ofTable "ealQDbdhUB"⟩,
  ⟨["hex", "hexdigit"],
    .ofTable "bWKHGbAGdslLKHGbAG"⟩,
  ⟨["hyphen"],
    .ofTable "bTBeXBbvWBgzZBdbDCfiBBbcLBczuLBgNBdJB"⟩,
  ⟨["idsb", "idsbinaryoperator"],
    .ofTable "seACCKtDB"⟩,
  ⟨["idst", "idstrinaryoperator"],
    .ofTable "seCC"⟩,
  ⟨["idsu", "idsunaryoperator"],
    .ofTable "seOC"⟩,
  ⟨["idcompatmathcontinue"],
    .ofTable "gWCFBmaGBDLBPoHBEBWBgjjEBZBbFBZBbFBZBbFBZBbFBZB"⟩,
  ⟨["idcompatmathstart"],
    .ofTable "mwWBEBWBgjjEBZBbFBZBbFBZBbFBZBbFBZB"⟩,
  ⟨["ideo", "ideographic"],
    .ofTable "
      seWCZJODblDjtOcMbfbKbhsIoCCeCbsiKBbBjcAIbvQbPKnuLpGbdeIclfCbGgdUGiOCinQOlbLPxYdqWuWcfYhhZF
      gfG"⟩,
  ⟨["joinc", "joincontrol"],
    .ofTable "mdOC"⟩,
  ⟨["loe", "logicalorderexception"],
    .ofTable "fkIFeTFedSDCBccxMCCBBC"⟩,
  ⟨["mcm", "modifiercombiningmark"],
    .ofTable "ckICCBfBBGBDCsNCBDDBbFB"⟩,
  ⟨["nchar", "noncharactercodepoint"],
    .ofTable "
      dsdCbGuGCdsyOCdsyOCdsyOCdsyOCdsyOCdsyOCdsyOCdsyOCdsyOCdsyOCdsyOCdsyOCdsyOCdsyOCdsyOCdsyOC"⟩,
  ⟨["oalpha", "otheralphabetic"],
    .ofTable "
      bgFBbDNwEOBBBCBCBBcULbWNBHQBdXHEECCEBbJBbEQdYLdXCDJBDBEeCBcIMDHGUcCCCPBCFDKCbDDcGHCCCCKBKC
      bDDcGFECCCEBbECDBLDcGIBDBCVCWDEDcGHCCCCJCKCbEBcHFDDBDKBbOFcFHBDBDICLCbDDcGHBDBDICLCPBMEcGH
      BDBDKBKCbDDcXGBBBISCcJBCHSBdVBCGBCQBgHTJLBbKeGMBBCEXEEDBDCHDENMBBKEclOCbECbECbECcOThGCbIBe
      OMEJiOFcFKCUcWCLDbXFbWPcIDbEJCCcFLbYTpWbIcoNcAdkGbGbtqAIbICnQBIBXFdKCbYQBBcFBbMFbCMbTEbWMb
      LBcPOMBICbTDbYBBDCCFBbSFFBjDIbdzVBdeDFcmGDBCFEbeIEcNBmJCdBBjZDcBObTCLDbTJJBcJDbKMSCcFDbWNO
      CdOJCBGBCBgBKXEcGHCCCCKBKCdGJBBCBBEBCdZNBDeCSjDHCHbDCdEPBBeCLdZOjXNjNGBCCCDBBBfMHCGEBbCKbQ
      FBESLbUOpRIBHdFWBOeSGDBBCBDBBDBcOFBCBEnKEJCBBbWHDDyyNRfjCBBcDHEdPCbdaYBnkJHBRCHBCBFdWBdhVB
      czWbAGbAGbA"⟩,
  ⟨["odi", "otherdefaultignorablecodepoint"],
    .ofTable "bgPBfiLCckHCdhNBglIBdacPBdBJbwmiHBBbEdSeYjGfiM"⟩,
  ⟨["ogrext", "othergraphemeextend"],
    .ofTable "
      drYBYBnUBYBdYBYBiYBBBECBCJCdZBYBePBPBdmRBbEBbnKBFBBBFCdXBcTCboIBgcVCbtwTBeEBbgnLCgwMBeMBkE
      BOBJBdSBJBCBBDFBiQBMBjHBkCByJBMBchFBbeoKCbkxNCGGbtlaZdS"⟩,
  ⟨["oidc", "otheridcontinue"],
    .ofTable "hBBbbRBgaJJclCBciZCgkRBdaeJB"⟩,
  ⟨["oids", "otheridstart"],
    .ofTable "jhLCdgJBVBfvWC"⟩,
  ⟨["olower", "otherlowercase"],
    .ofTable "
      gOBPBtHJHCbEFdSBcABfcZBepZcLNBbIbLbaNBNBQNiDQbgQbAcwOCbugKCiCBeZDDCbhIEJBbiwSBCDBbQBJddzHc
      K"⟩,
  ⟨["omath", "othermath"],
    .ofTable "
      dQBbhXDCBbACCCkqYBbBDLBbGEYCOCcNNEBDCEFSBEBCKBBDFGBDCCCBDBGDEFFcXFCEBCBCBBBFCCECESCCBBBHBB
      GClEEgMCBBYBRBrDCMJFFFCCCDFOBBBCGYCcFBBBbDEJCnECbFKpNWcLEbGCdclFBBBEBiDBBBdcoVdHBcTBCCBCCC
      EBMBBBHBcNBECIBHBbCBEBFBBDHBnCCZBZBbFBZBbFBZBbFBZBbFBZBICbYiiQEBbBBCBBCBBKBEBBBBGBEBBBBBBD
      BCBBCBBBBBBBBBBCBBCEBHBEBEBBBKBRFDBFBR"⟩,
  ⟨["oupper", "otheruppercase"],
    .ofTable "mqQQbgGbAgsiYbAGbAGbA"⟩,
  ⟨["patsyn", "patternsyntax"],
    .ofTable "
      bHPKHbAEBBbAEbIHBBBCBBBCEBEBDBXBbFBluEYIPCTBKlTbbSgEyGbEbrOtSeYoVDEZPBczqZCkBC"⟩,
  ⟨["patws", "patternwhitespace"],
    .ofTable "JFSBdWBlyMCYC"⟩,
  ⟨["pcm", "prependedconcatenationmark"],
    .ofTable "chCGiHBbXBoUCdCBdvxYBPB"⟩,
  ⟨["qmark", "quotationmark"],
    .ofTable "bIBEBfBBPBlwUIZCfiDBrPENDdabPEhHBEBdMC"⟩,
  ⟨["radical"],
    .ofTable "rpWbABdLMiG"⟩,
  ⟨["ri", "regionalindicator"],
    .ofTable "hgoKbA"⟩,
  ⟨["sd", "softdotted"],
    .ofTable "
      eBChOBkVBbEBcABUBmIBdUBBBjmNBbZBNBDBfCBgBBqFBiGCegGBgelHCbYCbYCbYCbYCbYCbYCbYCbYCbYCbYCbYC
      bYCdfYBlTCbAB"⟩,
  ⟨["sterm", "sentenceterminal"],
    .ofTable "
      bHBMBQBcaBBfRDgYBbRDjMBcJBBBDClHCcpWCbeKBECbdTBhQCgBCbTBFBmCCnQEgGCKCCCbDDhFCcNCbjWBXCJDeu
      XDlUBNBWCqNBbshWBkKCiTBDBoSCdICdRBfWCfRDfOCjPBbfcWBCCcHBDCgNBMBQBcNBedWCbxDFbSEhHCeNEeXDeZ
      CGBQCdKCBCeEBlMCeNCoJCFPeBCjPDtXBBBjRCdJCqECbaQCcWCbcmBCfDBcNCLBvHClKBbdoGBliMB"⟩,
  ⟨["term", "terminalpunctuation"],
    .ofTable "
      bHBKBBBLCDBbfYBIBtTBcFBcUBOBBDgYBbRLBBjBCcCGBIbFBkBCbwUCgQBEGlZCbeJIbdTBeUDcTCgBDDBbNECCmC
      CnQEgGCKCBDbDDhFFcKCbjWBXCJDeuXDlUBNBEBKBBCDCqMCbshVCkJDiTFoSCdICdRBfVDfRDeXBQCjPBbfcWBCCc
      FDBEgNBKBBBLCDBcNBCBbpQBbWBbsOBhRBlYCfWGcQGdLEbkQFbSEhHHeIEeXDeZCGBQCdKFeEBlMCeNDMCnUEDPeB
      CjPDtXBBBjRCdJCECpYDbTByVCcWCbyXFbamZCfDBcNDKBvHClJCbdoGBliLE"⟩,
  ⟨["uideo", "unifiedideograph"],
    .ofTable "tsAjtOcMbfbKbicSCBBBCKBBBBCCDdveCclfCbGgdUGiOCinQOlbLPxYgrQhhZFgfG"⟩,
  ⟨["vs", "variationselector"],
    .ofTable "jcTDBBdjcAQbwnkYjG"⟩,
  ⟨["wspace", "whitespace", "space"],
    .ofTable "JFSBdWBbABihJBdpNLbDCFBbVBfxWB"⟩]

/-- The characters with a basic property. -/
def property (name : String) : CharSet := (NamedSet.find? name basicProperties).getD {}

def whiteSpace : CharSet := property "whitespace"

def lowercase : CharSet := (category "ll").union (property "otherlowercase")

def uppercase : CharSet := (category "lu").union (property "otheruppercase")

/-- Characters that have case. -/
def cased : CharSet := .unions [lowercase, uppercase, category "lt"]

def alphabetic : CharSet := .unions [letters, category "nl", property "otheralphabetic"]

/-- Characters that are not shown unless something shows them specially. -/
def defaultIgnorable : CharSet :=
  let invisible := CharSet.unions
    [property "otherdefaultignorablecodepoint", category "cf", property "variationselector"]
  let shown := CharSet.unions
    [whiteSpace, property "prependedconcatenationmark", .range 0xFFF9 0xFFFB,
      .range 0x13430 0x13440]
  invisible.minus shown

/-- Characters that belong to the one before them. -/
def graphemeExtend : CharSet :=
  .unions [category "mn", category "me", property "othergraphemeextend"]

private def notInNames : CharSet := (property "patternsyntax").union (property "patternwhitespace")

/-- Characters that start identifiers. -/
def idStart : CharSet :=
  (CharSet.unions [letters, category "nl", property "otheridstart"]).minus notInNames

/-- Characters that identifiers go on with. -/
def idContinue : CharSet :=
  (CharSet.unions [idStart, category "mn", category "mc", category "nd", category "pc",
    property "otheridcontinue"]).minus notInNames

/-- Characters of words: alphabetic ones, marks, digits, connectors and joiners. -/
def wordChars : CharSet :=
  .unions [alphabetic, marks, category "nd", category "pc", property "joincontrol"]

/-- All properties by their names. -/
def properties : List NamedSet := basicProperties ++ [
  ⟨["alpha", "alphabetic"], alphabetic⟩,
  ⟨["cased"], cased⟩,
  ⟨["di", "defaultignorablecodepoint"], defaultIgnorable⟩,
  ⟨["grbase", "graphemebase"], .compl (.unions [category "cc", category "cf",
    category "co", unassigned, category "zl", category "zp", graphemeExtend])⟩,
  ⟨["grext", "graphemeextend"], graphemeExtend⟩,
  ⟨["idc", "idcontinue"], idContinue⟩,
  ⟨["ids", "idstart"], idStart⟩,
  ⟨["lower", "lowercase"], lowercase⟩,
  ⟨["math"], (category "sm").union (property "othermath")⟩,
  ⟨["upper", "uppercase"], uppercase⟩,
  ⟨["xidc", "xidcontinue"], idContinue.minus
    (.ofTable "biGBrcICczeFGpQCeMBBBBBBBBBBBBBBB")⟩,
  ⟨["xids", "xidstart"], idStart.minus
    (.ofTable "biGBebOBeXBmvVCczeFGpQCeMBBBBBBBBBBBBBBBlBC")⟩]

end Linkage
