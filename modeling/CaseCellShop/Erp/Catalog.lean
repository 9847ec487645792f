import CaseCellShop.Erp.Service

/-! The catalogs the fake ERP starts with or is seeded with (`prisma/catalog-data.ts`). -/
namespace CaseCellShop.Erp
open Catalog (ErpCatalogProduct ErpCatalogCompatibility)

def buildDemoCatalog : List ErpCatalogProduct :=
  [{id := "prod_case_iphone_15_clear"
    sku := "CASE-IP15-CLEAR"
    name := "Capa Transparente iPhone 15"
    description := "Capa transparente com borda reforcada para iPhone 15."
    imageUrl := "https://example.com/images/case-iphone-15-clear.jpg"
    brand := "CaseCell"
    active := true
    priceCents := 5990
    erpQty := 18
    compatibilities := [⟨"Apple", "iPhone 15", "apple-iphone-15"⟩]},
   {id := "prod_case_iphone_15_pro_black"
    sku := "CASE-IP15PRO-BLK"
    name := "Capa Premium iPhone 15 Pro"
    description := "Capa premium preta com acabamento fosco para iPhone 15 Pro."
    imageUrl := "https://example.com/images/case-iphone-15-pro-black.jpg"
    brand := "CaseCell"
    active := true
    priceCents := 7990
    erpQty := 12
    compatibilities := [⟨"Apple", "iPhone 15 Pro", "apple-iphone-15-pro"⟩]},
   {id := "prod_case_galaxy_s24_blue"
    sku := "CASE-S24-BLUE"
    name := "Capa Silicone Galaxy S24"
    description := "Capa de silicone azul para Galaxy S24."
    imageUrl := "https://example.com/images/case-s24-blue.jpg"
    brand := "CaseCell"
    active := true
    priceCents := 5490
    erpQty := 25
    compatibilities := [⟨"Samsung", "Galaxy S24", "samsung-galaxy-s24"⟩]},
   {id := "prod_case_multifit_magsafe"
    sku := "CASE-MAGSAFE-MULTI"
    name := "Capa MagSafe Multi Fit"
    description := "Capa com suporte MagSafe para modelos selecionados."
    imageUrl := "https://example.com/images/case-magsafe-multi.jpg"
    brand := "CaseCell"
    active := true
    priceCents := 8990
    erpQty := 9
    compatibilities := [⟨"Apple", "iPhone 15", "apple-iphone-15"⟩, ⟨"Apple", "iPhone 15 Pro", "apple-iphone-15-pro"⟩]}]

/-- The service as its process starts: everything it holds is in memory. -/
def ErpService.start : ErpService := ⟨buildDemoCatalog, [], fun _ => none, fun _ => none⟩

end CaseCellShop.Erp
